import GoOutline.Proofs.Resolver.ImportPaths
import GoOutline.Proofs.Resolver.Pools
import GoOutline.Proofs.TypeRef

/-!
# Answers and where they come from: `extract_type`

A search that yields a struct yields one of the name it was asked for, though the name is read anew in every package on
the way. A bare name is answered by the file or its siblings (`localStruct?`) or behind a dot import; a qualified name
by a file that was loaded behind an import, as that file answers the bare name. The files that a request loads are
listed by `Session.loaded`, along the search and in its order. So the name and, where no dot import leads astray, the
package of every answer are those that the text asks for, and a text without answer is reported as it was given
(`answer_name_package`).
-/
namespace GoOutline

open Session

variable {d : Disk} {given : List Sheet} {s t u : Session} {sheet : Sheet} {name text : String} {found : Found}

/-! ## Imports and qualifiers -/

/-- An import of the file is bound to the name. -/
def File.binds (file : File) (name : String) : Bool :=
  file.imports.any fun entry => entry.2 == name && name != "" && name != blankName && name != dotName

namespace Search

variable {α β : Type}

/-- An import that may bind a name either leaves it to the package, which has to have that name, or is bound to it. -/
theorem required_of_importsNamed {file : File} {qualifier : String} {entry : String × Option String}
    (h : entry ∈ file.importsNamed qualifier) : qualifier ∈ entry.2 ∨ file.binds qualifier = true := by
  obtain ⟨bound, hbound, rfl⟩ := List.mem_map.1 h
  obtain ⟨hmem, hkept⟩ := List.mem_filter.1 hbound
  by_cases hempty : bound.2.isEmpty = true
  · exact .inl (by simp [hempty])
  · refine .inr (List.any_eq_true.2 ⟨bound, hmem, ?_⟩)
    simp only [hempty, Bool.false_or, Bool.and_eq_true, beq_iff_eq] at hkept
    obtain ⟨⟨hblank, hdot⟩, rfl⟩ := hkept
    simpa [hblank, hdot] using hempty

/-! ## Files that a search loads -/

/-- The items that a search through a list comes to, each with the session in which it does. -/
def visited (f : α → Search (Option β)) : List α → Session → List (α × Session)
  | [], _ => []
  | a :: rest, s =>
    (a, s) :: match (f a).run s with
      | (.ok none, t) => visited f rest t
      | _ => []

/-- The files that sources are loaded as, up to the first source that cannot be loaded. -/
def loadedInOrder (d : Disk) (importPath : Option String) : List Path → Session → List Sheet
  | [], _ => []
  | path :: rest, s =>
    match (load d path importPath).run s with
    | (.ok sheet, t) => sheet :: loadedInOrder d importPath rest t
    | (.error _, _) => []

/-- The files that are loaded to collect siblings, none if they have been collected before. -/
def loadedForSiblings (d : Disk) (sheet : Sheet) (s : Session) : List Sheet :=
  match s.siblings? sheet, d.sourceFiles? sheet.file.directory false with
  | none, some paths =>
    let others := paths.filter fun path => !(d.canonicalOrSelf path).same sheet.file.location
    loadedInOrder d (s.importPath? sheet) others s
  | _, _ => []

section Next

variable (d : Disk) (next : Sheet → String → Search (Option Found)) (nextLoaded : Sheet → String → Session → List Sheet)

/-- The files that are loaded to look for a name behind an import. -/
def loadedBehind (sheet : Sheet) (importPath : String) (required : Option String) (name : String) (s : Session) :
    List Sheet :=
  match (s.search.packageDir? d sheet.file.directory importPath).bind (d.sourceFiles? · false) with
  | none => []
  | some paths =>
    (visited (inSource d next importPath required name) paths s).flatMap fun (path, t) =>
      match (load d path (some importPath)).run t with
      | (.error _, _) => []
      | (.ok candidate, u) =>
        candidate :: if required.any (· != candidate.file.package) then [] else nextLoaded candidate name u

/-- The files that are loaded to look for what a reference names. -/
def loadedForReference (sheet : Sheet) (ref : TypeRef) (s : Session) : List Sheet :=
  match ref.package with
  | some qualifier =>
    (visited (fun (path, required) => inImport d next sheet path required ref.name)
      (sheet.file.importsNamed qualifier) s).flatMap fun ((path, required), t) =>
        loadedBehind d next nextLoaded sheet path required ref.name t
  | none =>
    if (inSheet ref.name sheet).isSome then []
    else
      loadedForSiblings d sheet s ++
        match (siblings d sheet).run s with
        | (.error _, _) => []
        | (.ok siblings, t) =>
          if (siblings.findSome? (inSheet ref.name)).isSome then []
          else (visited (fun path => inImport d next sheet path none ref.name) sheet.file.dotImports t).flatMap
            fun (path, u) => loadedBehind d next nextLoaded sheet path none ref.name u

/-- The files that are loaded to look for the type that a text names. -/
def loadedForText (sheet : Sheet) (text : String) (s : Session) : List Sheet :=
  match TypeRef.parse? text with
  | none => []
  | some ref =>
    let key := (sheet.file.directory, ref.display)
    if s.isActive key then [] else loadedForReference d next nextLoaded sheet ref (s.enter key)

end Next

/-- The files that are loaded to look for the type that a text names, through at most the given number of packages. -/
def loadedWithin (d : Disk) : Nat → Sheet → String → Session → List Sheet
  | 0 => fun _ _ _ => []
  | depth + 1 => loadedForText d (typeTextWithin d depth) (loadedWithin d depth)

end Search

/-- The files that a request for a type loads, whether they are scanned for it or known already. -/
def Session.loaded (s : Session) (d : Disk) (sheet : Sheet) (text : String) : List Sheet :=
  Search.loadedWithin d (Search.depthLimit d) sheet text (s.remember sheet)

/-! ## Local answers -/

/-- The struct of a name in a file or, if it has none, in the siblings that are noted for it. -/
def Session.localStruct? (s : Session) (name : String) (sheet : Sheet) : Option Found :=
  (Search.inSheet name sheet).or ((s.siblings? sheet).bind (·.findSome? (Search.inSheet name)))

namespace Search

variable {α β : Type}

theorem inSheet_eq_some (h : inSheet name sheet = some found) : found.sheet = sheet ∧
    sheet.file.struct? name = some found.struct := by
  obtain ⟨struct, hstruct, rfl⟩ := Option.map_eq_some_iff.1 h
  exact ⟨rfl, hstruct⟩

/-- The struct is the one of the name in its own file. -/
def Names (name : String) (found : Found) : Prop :=
  inSheet name found.sheet = some found

theorem names_of_inSheet (h : inSheet name sheet = some found) : Names name found := by
  rw [Names, (inSheet_eq_some h).1]
  exact h

theorem names_of_findSome? {sheets : List Sheet} (h : sheets.findSome? (inSheet name) = some found) :
    found.sheet ∈ sheets ∧ Names name found := by
  obtain ⟨sibling, hmem, hsibling⟩ := List.exists_of_findSome?_eq_some h
  refine ⟨?_, names_of_inSheet hsibling⟩
  rw [(inSheet_eq_some hsibling).1]
  exact hmem

theorem names_of_localStruct? (h : s.localStruct? name sheet = some found) : Names name found := by
  rcases Option.or_eq_some_iff.1 h with hown | ⟨-, hsibling⟩
  · exact names_of_inSheet hown
  · obtain ⟨list, -, hfind⟩ := Option.bind_eq_some_iff.1 hsibling
    exact (names_of_findSome? hfind).2

/-- The search through a list that yields something has it from an item that it came to. -/
theorem exists_of_findSomeM? {f : α → Search (Option β)} {b : β} : ∀ {items : List α} {s : Session},
    (∀ a ∈ items, ∀ t, s.Extends t → Exploring d given t (f a)) →
    (items.findSomeM? f).run s = (.ok (some b), u) →
    ∃ a ∈ items, ∃ t, (a, t) ∈ visited f items s ∧ Explores d given s t ∧ (f a).run t = (.ok (some b), u)
  | [], s, _, h => by cases h
  | a :: rest, s, hf, h => by
    rw [List.findSomeM?_cons, run_bind] at h
    have hfirst : Explores d given s ((f a).run s).2 := hf a (by simp) s (.refl s)
    cases hrun : (f a).run s with
    | mk outcome t =>
      rw [hrun] at h hfirst
      cases outcome with
      | error e => cases h
      | ok result =>
        cases result with
        | some b' =>
          cases h
          exact ⟨a, by simp, s, by simp [visited], .refl s, hrun⟩
        | none =>
          obtain ⟨c, hc, v, hvisited, hexplores, hrest⟩ := exists_of_findSomeM?
            (fun c hc v hv => hf c (by simp [hc]) v (hfirst.extends.trans hv)) h
          exact ⟨c, by simp [hc], v, by simp [visited, hrun, hvisited], hfirst.trans hexplores, hrest⟩

section Next

variable {next : Sheet → String → Search (Option Found)}

/-- What is found behind an import is found in a file loaded there, which is of the required package. -/
theorem exists_of_inImport (nextLoaded : Sheet → String → Session → List Sheet) (hheld : s.Holds given sheet)
    {importPath : String} (hbehind : importPath ∈ sheet.file.imports.map (·.1)) {required : Option String}
    (hnext : ∀ candidate t, t.Holds given candidate → Exploring d given t (next candidate name))
    (h : (inImport d next sheet importPath required name).run s = (.ok (some found), u)) :
    ∃ candidate ∈ loadedBehind d next nextLoaded sheet importPath required name s, ∃ t,
      Explores d given s t ∧ t.Holds given candidate ∧ (∀ package ∈ required, candidate.file.package = package) ∧
        (next candidate name).run t = (.ok (some found), u) := by
  unfold inImport at h
  rw [run_get_bind] at h
  cases hdir : s.search.packageDir? d sheet.file.directory importPath with
  | none => rw [hdir] at h; cases h
  | some dir =>
    rw [hdir] at h
    simp only [run_bind, run_sources] at h
    cases hlist : d.sourceFiles? dir false with
    | none => rw [hlist] at h; cases h
    | some paths =>
      rw [hlist] at h
      have hexploring : ∀ path ∈ paths, ∀ t, s.Extends t →
          Exploring d given t (inSource d next importPath required name path) := by
        intro path _ t ht
        exact inSource_exploring (hheld.mono ht) hbehind required hnext path
      obtain ⟨path, -, t, hvisited, hexplores, hrun⟩ := exists_of_findSomeM? hexploring h
      rw [inSource, run_bind] at hrun
      have hload : Explores d given t ((load d path (some importPath)).run t).2 :=
        .load (hheld.mono hexplores.extends) hbehind path
      cases hcandidate : (load d path (some importPath)).run t with
      | mk outcome v =>
        rw [hcandidate] at hrun hload
        cases outcome with
        | error e => cases hrun
        | ok candidate =>
          by_cases hpassed : required.any (· != candidate.file.package) = true
          · simp only [hpassed, ite_true] at hrun
            cases hrun
          · simp only [hpassed, Bool.false_eq_true, ite_false] at hrun
            refine ⟨candidate, ?_, v, hexplores.trans hload, holds_of_load hcandidate, ?_, hrun⟩
            · simp only [loadedBehind, hdir, hlist, Option.bind_some, List.mem_flatMap]
              exact ⟨(path, t), hvisited, by simp [hcandidate]⟩
            · rintro package rfl
              have hsame : (package != candidate.file.package) = false := by simpa using hpassed
              exact (bne_eq_false_iff_eq.1 hsame).symm

/-- A bare name is found in the file or its siblings, which are noted then, or else behind a dot import. -/
theorem bareName_cases (hs : s.Sound) (hsheet : s.Has sheet) (hheld : s.Holds given sheet)
    (hnext : ∀ candidate t, t.Holds given candidate → Exploring d given t (next candidate name))
    (h : (bareName d next sheet name).run s = (.ok (some found), u)) :
    u.localStruct? name sheet = some found ∨
      u.localStruct? name sheet = none ∧ ∃ path ∈ sheet.file.dotImports, ∃ t, Explores d given s t ∧
        (inImport d next sheet path none name).run t = (.ok (some found), u) := by
  unfold bareName at h
  cases hown : inSheet name sheet with
  | some own =>
    rw [hown] at h
    cases h
    exact .inl (by simp [localStruct?, hown])
  | none =>
    rw [hown] at h
    simp only [run_bind] at h
    have hsiblings : Explores d given s ((siblings d sheet).run s).2 := .siblings hheld
    cases hrun : (siblings d sheet).run s with
    | mk outcome t =>
      cases outcome with
      | error e => rw [hrun] at h; cases h
      | ok list =>
        have hnoted := siblings?_of_siblings hs hsheet (congrArg Prod.fst hrun)
        rw [hrun] at h hsiblings hnoted
        cases hfind : list.findSome? (inSheet name) with
        | some sibling =>
          simp only [hfind] at h
          cases h
          exact .inl (by simp [localStruct?, hown, hnoted, hfind])
        | none =>
          simp only [hfind] at h
          have hexploring : ∀ path ∈ sheet.file.dotImports, ∀ v, t.Extends v →
              Exploring d given v (inImport d next sheet path none name) := by
            intro path hpath v hv
            exact inImport_exploring ((hheld.mono hsiblings.extends).mono hv) (mem_imports_of_dotImports hpath) none
              hnext
          obtain ⟨path, hpath, v, -, hexplores, hbehind⟩ := exists_of_findSomeM? hexploring h
          have hlast : Explores d given v u := by
            have hstep := hexploring path hpath v hexplores.extends
            rw [Exploring, hbehind] at hstep
            exact hstep
          have hstays := (hexplores.trans hlast).extends.siblings sheet list hnoted
          exact .inr ⟨by simp [localStruct?, hown, hstays, hfind], path, hpath, v, hsiblings.trans hexplores, hbehind⟩

/-- A qualified name is found in a file that is loaded behind an import. Unless the import is bound to the qualifier, the
file is of that package. -/
theorem exists_of_qualifiedName (nextLoaded : Sheet → String → Session → List Sheet) (hheld : s.Holds given sheet)
    {qualifier : String}
    (hnext : ∀ candidate t, t.Holds given candidate → Exploring d given t (next candidate name))
    (h : (qualifiedName d next sheet qualifier name).run s = (.ok (some found), u)) :
    ∃ candidate ∈ loadedForReference d next nextLoaded sheet ⟨some qualifier, name⟩ s, ∃ t,
      Explores d given s t ∧ t.Holds given candidate ∧
        (sheet.file.binds qualifier = true ∨ candidate.file.package = qualifier) ∧
        (next candidate name).run t = (.ok (some found), u) := by
  have hexploring : ∀ entry ∈ sheet.file.importsNamed qualifier, ∀ t, s.Extends t →
      Exploring d given t (inImport d next sheet entry.1 entry.2 name) := by
    intro entry hentry t ht
    exact inImport_exploring (hheld.mono ht) (mem_imports_of_importsNamed hentry) entry.2 hnext
  obtain ⟨entry, hentry, t, hvisited, hexplores, hrun⟩ := exists_of_findSomeM? hexploring h
  obtain ⟨candidate, hloaded, v, hexplores', hcandidate, hpackage, hnextRun⟩ := exists_of_inImport nextLoaded
    (hheld.mono hexplores.extends) (mem_imports_of_importsNamed hentry) hnext hrun
  refine ⟨candidate, ?_, v, hexplores.trans hexplores', hcandidate, ?_, hnextRun⟩
  · exact List.mem_flatMap.2 ⟨(entry, t), hvisited, hloaded⟩
  · rcases required_of_importsNamed hentry with hrequired | hbinds
    · exact .inr (hpackage qualifier hrequired)
    · exact .inl hbinds

end Next

/-! ## Names and packages -/

/-- A search that yields something has read its text, and entered the name in the directory for the time of it. -/
theorem exists_of_typeTextWithin {depth : Nat}
    (h : (typeTextWithin d depth sheet text).run s = (.ok (some found), u)) :
    ∃ below ref v, depth = below + 1 ∧ TypeRef.parse? text = some ref ∧
      s.isActive (sheet.file.directory, ref.display) = false ∧
      (reference d (typeTextWithin d below) sheet ref).run (s.enter (sheet.file.directory, ref.display)) =
        (.ok (some found), v) ∧ u = v.leave (sheet.file.directory, ref.display) := by
  cases depth with
  | zero => cases h
  | succ below =>
    rw [typeTextWithin, typeText] at h
    cases hparse : TypeRef.parse? text with
    | none => rw [hparse] at h; cases h
    | some ref =>
      rw [hparse] at h
      simp only [run_guarded] at h
      by_cases hkey : s.isActive (sheet.file.directory, ref.display) = true
      · rw [if_pos hkey] at h
        cases h
      · rw [if_neg hkey] at h
        cases hrun : (reference d (typeTextWithin d below) sheet ref).run
            (s.enter (sheet.file.directory, ref.display)) with
        | mk outcome v =>
          rw [hrun] at h
          cases h
          exact ⟨below, ref, v, rfl, rfl, by simpa using hkey, hrun, rfl⟩

/-- Every search yields a struct of the name that its text ends in. -/
theorem names_of_typeTextWithin : ∀ {depth : Nat} {s : Session} {sheet : Sheet} {text : String} {u : Session},
    s.Sound → (∀ sheet ∈ given, s.Has sheet) → s.Holds given sheet →
    (typeTextWithin d depth sheet text).run s = (.ok (some found), u) →
    ∃ ref, TypeRef.parse? text = some ref ∧ Names ref.name found
  | 0, _, _, _, _, _, _, _, h => by cases h
  | depth + 1, s, sheet, text, u, hs, hgiven, hheld, h => by
    obtain ⟨below, ref, v, hdepth, hparse, -, hrun, -⟩ := exists_of_typeTextWithin h
    obtain rfl : depth = below := by omega
    refine ⟨ref, hparse, ?_⟩
    have hnext : ∀ candidate t, t.Holds given candidate →
        Exploring d given t (typeTextWithin d depth candidate ref.name) :=
      fun candidate t hcandidate => typeTextWithin_explores depth ref.name hcandidate
    -- wherever the search goes on with the bare name, it reads the same name again
    have hagain : ∀ candidate t w, Explores d given (s.enter (sheet.file.directory, ref.display)) t →
        t.Holds given candidate → (typeTextWithin d depth candidate ref.name).run t = (.ok (some found), w) →
        Names ref.name found := by
      intro candidate t w hexplores hcandidate hfound
      obtain ⟨again, hread, hnames⟩ := names_of_typeTextWithin (hexplores.sound (hs.enter _))
        (hexplores.met hgiven) hcandidate hfound
      rw [TypeRef.parse?_name hparse] at hread
      cases hread
      exact hnames
    have hentered : (s.enter (sheet.file.directory, ref.display)).Holds given sheet := hheld
    obtain ⟨package, name⟩ := ref
    cases package with
    | none =>
      rcases bareName_cases (hs.enter _) (hheld.has hs hgiven) hentered hnext hrun with
        hlocal | ⟨-, path, hpath, t, hexplores, hbehind⟩
      · exact names_of_localStruct? hlocal
      · obtain ⟨candidate, -, w, hexplores', hcandidate, -, hfound⟩ := exists_of_inImport (loadedWithin d depth)
          (hentered.mono hexplores.extends) (mem_imports_of_dotImports hpath) hnext hbehind
        exact hagain candidate w v (hexplores.trans hexplores') hcandidate hfound
    | some qualifier =>
      obtain ⟨candidate, -, t, hexplores, hcandidate, -, hfound⟩ :=
        exists_of_qualifiedName (loadedWithin d depth) hentered hnext hrun
      exact hagain candidate t v hexplores hcandidate hfound

/-- A bare name is answered locally, unless the file has dot imports and nothing local answers it. -/
theorem typeTextWithin_local {depth : Nat} (hs : s.Sound) (hgiven : ∀ sheet ∈ given, s.Has sheet)
    (hheld : s.Holds given sheet) (hparse : TypeRef.parse? text = some (.ofLocal name))
    (h : (typeTextWithin d depth sheet text).run s = (.ok (some found), u)) :
    u.localStruct? name sheet = some found ∨
      u.localStruct? name sheet = none ∧ sheet.file.dotImports ≠ [] := by
  obtain ⟨below, ref, v, -, hread, -, hrun, rfl⟩ := exists_of_typeTextWithin h
  rw [hparse] at hread
  cases hread
  have hnext : ∀ candidate t, t.Holds given candidate →
      Exploring d given t (typeTextWithin d below candidate name) :=
    fun candidate t hcandidate => typeTextWithin_explores below name hcandidate
  have hentered : (s.enter (sheet.file.directory, name)).Holds given sheet := hheld
  rcases bareName_cases (hs.enter _) (hheld.has hs hgiven) hentered hnext hrun with
    hlocal | ⟨hnone, path, hpath, -⟩
  · exact .inl hlocal
  · exact .inr ⟨hnone, List.ne_nil_of_mem hpath⟩

/-- A qualified name whose qualifier no import is bound to is answered locally by a file of that package that was loaded,
unless this file has dot imports. -/
theorem typeTextWithin_qualified {depth : Nat} {qualifier : String} (hs : s.Sound)
    (hgiven : ∀ sheet ∈ given, s.Has sheet) (hheld : s.Holds given sheet)
    (hparse : TypeRef.parse? text = some ⟨some qualifier, name⟩) (hbinds : sheet.file.binds qualifier = false)
    (h : (typeTextWithin d depth sheet text).run s = (.ok (some found), u)) :
    ∃ candidate ∈ loadedWithin d depth sheet text s, u.Has candidate ∧ candidate.file.package = qualifier ∧
      (u.localStruct? name candidate = some found ∨ candidate.file.dotImports ≠ []) := by
  obtain ⟨below, ref, v, rfl, hread, hfresh, hrun, rfl⟩ := exists_of_typeTextWithin h
  rw [hparse] at hread
  cases hread
  have hnext : ∀ candidate t, t.Holds given candidate →
      Exploring d given t (typeTextWithin d below candidate name) :=
    fun candidate t hcandidate => typeTextWithin_explores below name hcandidate
  have hentered : (s.enter (sheet.file.directory, TypeRef.display ⟨some qualifier, name⟩)).Holds given sheet := hheld
  obtain ⟨candidate, hloaded, t, hexplores, hcandidate, hpackage, hfound⟩ :=
    exists_of_qualifiedName (loadedWithin d below) hentered hnext hrun
  have ht : t.Sound := hexplores.sound (hs.enter _)
  have hmet : ∀ sheet ∈ given, t.Has sheet := hexplores.met hgiven
  have hlast : t.Extends v := by
    have hsearch := hnext candidate t hcandidate
    rw [Exploring, hfound] at hsearch
    exact hsearch.extends
  refine ⟨candidate, ?_, (hcandidate.has ht hmet).mono hlast.files, ?_, ?_⟩
  · simp only [loadedWithin, loadedForText, hparse, hfresh, Bool.false_eq_true, ite_false]
    exact hloaded
  · rcases hpackage with hbound | hpackage
    · rw [hbound] at hbinds
      cases hbinds
    · exact hpackage
  · rcases typeTextWithin_local ht hmet hcandidate (TypeRef.parse?_name hparse) hfound with hlocal | ⟨-, hdots⟩
    · exact .inl hlocal
    · exact .inr hdots

/-! ## Failures -/

/-- The step fails with errors of one kind only. -/
def FailsWith (P : Error → Prop) (x : Search α) : Prop :=
  ∀ s e, (x.run s).1 = .error e → P e

section FailsWith

variable {P : Error → Prop}

theorem FailsWith.pure (a : α) : FailsWith P (pure a) := by
  intro s e h
  cases h

theorem FailsWith.bind {x : Search α} {f : α → Search β} (hx : FailsWith P x) (hf : ∀ a, FailsWith P (f a)) :
    FailsWith P (x >>= f) := by
  intro s e h
  have hfirst := hx s e
  rw [run_bind] at h
  cases hrun : x.run s with
  | mk outcome t =>
    rw [hrun] at h hfirst
    cases outcome with
    | error e' => cases h; exact hfirst rfl
    | ok a => exact hf a t e h

theorem FailsWith.get_bind {f : Session → Search β} (hf : ∀ s, FailsWith P (f s)) : FailsWith P (get >>= f) := by
  intro s e h
  rw [run_get_bind] at h
  exact hf s s e h

theorem FailsWith.mapM {f : α → Search β} (hf : ∀ a, FailsWith P (f a)) :
    ∀ items : List α, FailsWith P (items.mapM f)
  | [] => .pure []
  | a :: rest => by
    rw [List.mapM_cons]
    exact (hf a).bind fun b => (FailsWith.mapM hf rest).bind fun bs => .pure (b :: bs)

theorem FailsWith.findSomeM? {f : α → Search (Option β)} (hf : ∀ a, FailsWith P (f a)) :
    ∀ items : List α, FailsWith P (items.findSomeM? f)
  | [] => .pure none
  | a :: rest => by
    rw [List.findSomeM?_cons]
    refine (hf a).bind fun result => ?_
    cases result with
    | some b => exact .pure (some b)
    | none => exact FailsWith.findSomeM? hf rest

end FailsWith

/-- The error is not that a type was not found. -/
def IsHindrance (e : Error) : Prop := e.isNotFound = false

theorem isHindrance_of_scanLocated {location : Path} {e : Error} (h : d.scanLocated location = .error e) :
    IsHindrance e := by
  unfold Disk.scanLocated Disk.readSource File.ofSource at h
  cases hread : d.readText location with
  | error cause => rw [hread] at h; cases h; rfl
  | ok source =>
    rw [hread] at h
    simp only [bind, Except.bind] at h
    split at h
    · cases h; rfl
    · split at h <;> cases h
      rfl

theorem load_failsWith (path : Path) (importPath : Option String) :
    FailsWith IsHindrance (load d path importPath) := by
  intro s e h
  rw [run_load] at h
  cases hknown : s.knownAt? (d.canonicalOrSelf path) with
  | some sheet => rw [hknown] at h; cases h
  | none =>
    rw [hknown] at h
    cases hscan : d.scanLocated (d.canonicalOrSelf path) with
    | ok file => rw [hscan] at h; cases h
    | error e' =>
      rw [hscan] at h
      cases h
      exact isHindrance_of_scanLocated hscan

theorem sources_failsWith (dir : Path) : FailsWith IsHindrance (sources d dir) := by
  intro s e h
  rw [run_sources] at h
  cases hlist : d.sourceFiles? dir false with
  | none => rw [hlist] at h; cases h; rfl
  | some paths => rw [hlist] at h; cases h

theorem siblings_failsWith (sheet : Sheet) : FailsWith IsHindrance (siblings d sheet) := by
  refine FailsWith.get_bind fun s => ?_
  cases s.siblings? sheet with
  | some found => exact .pure found
  | none =>
    have hload : FailsWith IsHindrance (loadSiblings d sheet) := by
      refine (sources_failsWith _).bind fun paths => FailsWith.get_bind fun t => ?_
      exact (FailsWith.mapM (fun path => load_failsWith path _) _).bind fun loaded => .pure _
    refine hload.bind fun found => FailsWith.bind ?_ fun _ => .pure found
    intro t e h
    cases h

theorem guarded_failsWith {key : Path × String} {body : Search α} (h : FailsWith IsHindrance body) :
    FailsWith IsHindrance (guarded key body) := by
  intro s e he
  rw [run_guarded] at he
  by_cases hkey : s.isActive key = true
  · rw [if_pos hkey] at he
    cases he
    rfl
  · rw [if_neg hkey] at he
    exact h _ e he

theorem inImport_failsWith {next : Sheet → String → Search (Option Found)} (sheet : Sheet) (importPath : String)
    (required : Option String) (hnext : ∀ candidate, FailsWith IsHindrance (next candidate name)) :
    FailsWith IsHindrance (inImport d next sheet importPath required name) := by
  refine FailsWith.get_bind fun s => ?_
  split
  · exact .pure none
  · refine (sources_failsWith _).bind fun paths => FailsWith.findSomeM? (fun path => ?_) paths
    refine (load_failsWith path _).bind fun candidate => ?_
    split
    · exact .pure none
    · exact hnext candidate

theorem reference_failsWith {next : Sheet → String → Search (Option Found)} (sheet : Sheet) (ref : TypeRef)
    (hnext : ∀ candidate, FailsWith IsHindrance (next candidate ref.name)) :
    FailsWith IsHindrance (reference d next sheet ref) := by
  unfold reference
  split
  · unfold bareName
    split
    · exact .pure _
    · refine (siblings_failsWith sheet).bind fun list => ?_
      split
      · exact .pure _
      · exact FailsWith.findSomeM? (fun path => inImport_failsWith sheet path none hnext) _
  · unfold qualifiedName
    refine FailsWith.findSomeM? (fun entry => ?_) _
    exact inImport_failsWith sheet entry.1 entry.2 hnext

/-- Below a request nothing is reported as not found: where there is no answer, the search yields none. -/
theorem typeTextWithin_failsWith : ∀ (depth : Nat) (sheet : Sheet) (text : String),
    FailsWith IsHindrance (typeTextWithin d depth sheet text)
  | 0, _, _ => .pure none
  | depth + 1, sheet, text => by
    rw [typeTextWithin, typeText]
    cases TypeRef.parse? text with
    | none => exact .pure none
    | some ref =>
      refine guarded_failsWith (reference_failsWith sheet ref fun candidate => ?_)
      exact typeTextWithin_failsWith depth candidate ref.name

end Search

/-! ## Answers of requests -/

open Search

/-- A request fails as its search does, says that nothing was found, or answers by what was found. -/
theorem extractType_cases {outcome : Except Error Found} (h : (Session.extractType d sheet text).run s = (outcome, u)) :
    (∃ e, (typeTextWithin d (depthLimit d) sheet text).run (s.remember sheet) = (.error e, u) ∧ outcome = .error e) ∨
    (typeTextWithin d (depthLimit d) sheet text).run (s.remember sheet) = (.ok none, u) ∧
      outcome = .error (.typeNotFound text) ∨
    ∃ found, (typeTextWithin d (depthLimit d) sheet text).run (s.remember sheet) = (.ok (some found), u) ∧
      outcome = .ok found := by
  have hrun : (orNotFound text (typeTextWithin d (depthLimit d) sheet text)).run (s.remember sheet) = (outcome, u) := h
  rw [orNotFound, run_bind] at hrun
  cases hsearch : (typeTextWithin d (depthLimit d) sheet text).run (s.remember sheet) with
  | mk result t =>
    rw [hsearch] at hrun
    cases result with
    | error e =>
      cases hrun
      exact .inl ⟨e, rfl, rfl⟩
    | ok result =>
      cases result with
      | none =>
        cases hrun
        exact .inr (.inl ⟨rfl, rfl⟩)
      | some found =>
        cases hrun
        exact .inr (.inr ⟨found, rfl, rfl⟩)

/-- The answer to a request is the one that its search has found. -/
theorem typeTextWithin_of_extractType (h : (Session.extractType d sheet text).run s = (.ok found, u)) :
    (typeTextWithin d (depthLimit d) sheet text).run (s.remember sheet) = (.ok (some found), u) := by
  rcases extractType_cases h with ⟨e, -, houtcome⟩ | ⟨-, houtcome⟩ | ⟨answer, hsearch, houtcome⟩
  · cases houtcome
  · cases houtcome
  · cases houtcome
    exact hsearch

theorem extractType_notFound (h : (Session.extractType d sheet text).run s = (.error (.typeNotFound name), u)) :
    name = text := by
  rcases extractType_cases h with ⟨e, hsearch, houtcome⟩ | ⟨-, houtcome⟩ | ⟨answer, -, houtcome⟩
  · -- the search itself reports nothing of the kind
    cases houtcome
    have hfails := typeTextWithin_failsWith (d := d) (depthLimit d) sheet text (s.remember sheet) (.typeNotFound name)
    rw [hsearch] at hfails
    cases hfails rfl
  · cases houtcome
    rfl
  · cases houtcome

/-- A local answer is of the file or a noted sibling, and of the package of the file. -/
theorem Session.Akin.localStruct? (h : s.Akin) (hsheet : s.Has sheet)
    (hlocal : s.localStruct? name sheet = some found) :
    found.sheet.file.package = sheet.file.package ∧
      (found.sheet = sheet ∨ ∃ siblings, s.siblings? sheet = some siblings ∧ found.sheet ∈ siblings) := by
  rcases Option.or_eq_some_iff.1 hlocal with hown | ⟨-, hsibling⟩
  · rw [(inSheet_eq_some hown).1]
    exact ⟨rfl, .inl rfl⟩
  · obtain ⟨siblings, hnoted, hfind⟩ := Option.bind_eq_some_iff.1 hsibling
    have hmem := (names_of_findSome? hfind).1
    exact ⟨h sheet siblings hsheet hnoted _ hmem, .inr ⟨siblings, hnoted, hmem⟩⟩

/-- In every pool that comes about, the struct that a request yields has the name that the text ends in. A bare name in
a file without dot imports yields one of the file's package, out of the file or its noted siblings; a qualified name one
of the package of that name, if no import of the file is bound to it and no file that was loaded has dot imports. A
request that finds nothing says so with the text as it was given. -/
theorem answer_name_package {p : Pool} (reached : Pool.start.Reaches p) {i : Nat} (turn : p.turn? i = some s)
    (met : s.Has sheet) (d : Disk) (text : String) {outcome : Except Error Found}
    (run : (Session.extractType d sheet text).run s = (outcome, u)) :
    (∀ found, outcome = .ok found →
      ∃ ref, TypeRef.parse? text = some ref ∧ found.struct.name = ref.name ∧
        found.sheet.file.struct? ref.name = some found.struct ∧
        (ref.package = none → sheet.file.dotImports = [] →
          (u.origin found.sheet).package = sheet.file.package ∧
            (found.sheet = sheet ∨ ∃ siblings, u.siblings? sheet = some siblings ∧ found.sheet ∈ siblings)) ∧
        (∀ qualifier, ref.package = some qualifier → sheet.file.binds qualifier = false →
          (∀ other ∈ s.loaded d sheet text, other.file.dotImports = []) →
          (u.origin found.sheet).package = qualifier)) ∧
    (∀ name, outcome = .error (.typeNotFound name) → name = text) := by
  have hsound := (reached.orderly.sound i s turn).remember met
  have hgiven := met.remembered
  have hheld := holds_given (s.remember sheet) sheet
  refine ⟨?_, ?_⟩
  · rintro found rfl
    have hexplores := extractType_explores d sheet text s
    have hsearch := typeTextWithin_of_extractType run
    rw [run] at hexplores
    have hakin : u.Akin :=
      hexplores.akin hsound hgiven ((reached.orderly.akin s (Pool.notes_of_turn turn)).remember sheet)
    obtain ⟨ref, hparse, hnames⟩ := names_of_typeTextWithin hsound hgiven hheld hsearch
    have hstruct := (inSheet_eq_some hnames).2
    refine ⟨ref, hparse, by simpa using List.find?_some hstruct, hstruct, ?_, ?_⟩
    · intro hlocal hdots
      obtain ⟨package, name⟩ := ref
      cases hlocal
      have hmet : u.Has sheet := hexplores.met hgiven sheet (by simp)
      rcases typeTextWithin_local hsound hgiven hheld hparse hsearch with hanswer | ⟨-, hdotted⟩
      · exact hakin.localStruct? hmet hanswer
      · exact absurd hdots hdotted
    · intro qualifier hqualified hbinds hdots
      obtain ⟨package, name⟩ := ref
      cases hqualified
      obtain ⟨candidate, hloaded, hmet, hpackage, hanswer⟩ :=
        typeTextWithin_qualified hsound hgiven hheld hparse hbinds hsearch
      rcases hanswer with hanswer | hdotted
      · exact (hakin.localStruct? hmet hanswer).1.trans hpackage
      · exact absurd (hdots candidate hloaded) hdotted
  · rintro name rfl
    exact extractType_notFound run

namespace PairAndUser

/-- Two resolvers. -/
def pair : Pool :=
  (Pool.start.join ⟨false, some (.ofString "/"), none⟩ none).join ⟨false, some (.ofString "/"), none⟩ none

/-- The first has scanned a file of the package. -/
def shared : Pool := pair.serve 0 pairAndUser (.scan (.ofString "/p/a.go"))

/-- The other has then noted the siblings of the file, and the first has scanned the user. -/
def pool : Pool :=
  (shared.serve 1 pairAndUser (.extractType insider "B")).serve 0 pairAndUser (.scan (.ofString "/m/m.go"))

theorem shared_reached : Pool.start.Reaches shared := by
  have hpair : Pool.start.Reaches pair := .tail (.tail .refl (.join Pool.start _ none)) (.join _ _ none)
  exact hpair.tail (Pool.step_of_allows (by decide +kernel) pairAndUser (by simp))

theorem pool_reached : Pool.start.Reaches pool := by
  have hnoted := shared_reached.tail (Pool.step_of_allows (i := 1) (q := .extractType insider "B") (by decide +kernel)
    pairAndUser (by simp))
  exact hnoted.tail (Pool.step_of_allows (by decide +kernel) pairAndUser (by simp))

/-- The user has been met, and a struct is found for which one file is loaded, without dot imports. -/
def isAnswered (s : Session) : Bool :=
  s.files[user.number]? == some user.file && ((Session.extractType pairAndUser user "p.B").run s).1.toOption.isSome &&
    (s.loaded pairAndUser user "p.B").map (·.file.dotImports) == [[]]

theorem exists_answer : ∃ s found u, pool.turn? 0 = some s ∧ s.Has user ∧
    (Session.extractType pairAndUser user "p.B").run s = (.ok found, u) ∧
    (s.loaded pairAndUser user "p.B").map (·.file.dotImports) = [[]] := by
  have hanswered : (pool.turn? 0).any isAnswered = true := by decide +kernel
  obtain ⟨s, hturn, hs⟩ := (Option.any_eq_true _ _).1 hanswered
  simp only [isAnswered, Bool.and_eq_true, beq_iff_eq] at hs
  obtain ⟨⟨hmet, hfound⟩, hloaded⟩ := hs
  cases hrun : (Session.extractType pairAndUser user "p.B").run s with
  | mk outcome u =>
    rw [hrun] at hfound
    cases outcome with
    | error e => cases hfound
    | ok found => exact ⟨s, found, u, hturn, hmet, hrun, hloaded⟩

end PairAndUser

/-- The struct stands in a sibling of the file that is loaded, in a list that another resolver has noted. -/
theorem answer_name_package_pairAndUser :
    Pool.start.Reaches PairAndUser.pool ∧
    ∃ s found u, PairAndUser.pool.turn? 0 = some s ∧ s.Has PairAndUser.user ∧
      (Session.extractType pairAndUser PairAndUser.user "p.B").run s = (.ok found, u) ∧
      (s.loaded pairAndUser PairAndUser.user "p.B").map (·.file.dotImports) = [[]] ∧
      found.struct.name = "B" ∧ (u.origin found.sheet).package = "p" := by
  obtain ⟨s, found, u, hturn, hmet, hrun, hloaded⟩ := PairAndUser.exists_answer
  obtain ⟨ref, hparse, hname, -, -, hpackage⟩ :=
    (answer_name_package PairAndUser.pool_reached hturn hmet pairAndUser "p.B" hrun).1 found rfl
  have href : TypeRef.parse? "p.B" = some ⟨some "p", "B"⟩ := by decide +kernel
  rw [href] at hparse
  cases hparse
  refine ⟨PairAndUser.pool_reached, s, found, u, hturn, hmet, hrun, hloaded, hname, ?_⟩
  refine hpackage "p" rfl (by decide +kernel) fun other hother => ?_
  have hdots : other.file.dotImports ∈ [([] : List String)] := hloaded ▸ List.mem_map.2 ⟨other, hother, rfl⟩
  simpa using hdots

end GoOutline
