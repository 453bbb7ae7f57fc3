import GoOutline.Proofs.Resolver.Transparency

/-!
# Searches that come back

A search for a bare name goes through the dot imports of a file in order and depth first. It reports a cycle
exactly when it comes to a file in a directory under search before it meets a file that declares the name, itself
or through a sibling (`Back`). What is behind a dot import further on is then never looked at, even if it declares
the name: a file outside the package of its directory that brings in the names of that package comes back at once.
-/
namespace GoOutline

/-! ## First results -/

section First

variable {ε α β : Type} {f : α → Except ε (Option β)}

theorem findSomeM?_append (f : α → Except ε (Option β)) : ∀ l m : List α,
    (l ++ m).findSomeM? f = l.findSomeM? f >>= fun
      | some b => .ok (some b)
      | none => m.findSomeM? f
  | [], _ => rfl
  | a :: l, m => by
    rw [List.cons_append, List.findSomeM?_cons, List.findSomeM?_cons]
    cases f a with
    | error e => rfl
    | ok found =>
      cases found with
      | some b => rfl
      | none => exact findSomeM?_append f l m

theorem findSomeM?_flatMap {ι : Type} (f : α → Except ε (Option β)) (g : ι → List α) : ∀ l : List ι,
    (l.flatMap g).findSomeM? f = l.findSomeM? fun i => (g i).findSomeM? f
  | [] => rfl
  | i :: l => by
    rw [List.flatMap_cons, findSomeM?_append, List.findSomeM?_cons]
    cases (g i).findSomeM? f with
    | error e => rfl
    | ok found =>
      cases found with
      | some b => rfl
      | none => exact findSomeM?_flatMap f g l

theorem findSomeM?_map {ι : Type} (f : α → Except ε (Option β)) (g : ι → α) : ∀ l : List ι,
    (l.map g).findSomeM? f = l.findSomeM? fun i => f (g i)
  | [] => rfl
  | i :: l => by
    rw [List.map_cons, List.findSomeM?_cons, List.findSomeM?_cons, findSomeM?_map f g l]

/-- The outcome of a search through a list, unless nothing is found, is that of the first item with one. -/
theorem exists_of_findSomeM? {r : Except ε (Option β)} (hr : r ≠ .ok none) : ∀ {l : List α},
    l.findSomeM? f = r → ∃ before a after, l = before ++ a :: after ∧ (∀ b ∈ before, f b = .ok none) ∧ f a = r
  | [], h => absurd h.symm hr
  | b :: l, h => by
    rw [List.findSomeM?_cons] at h
    cases hb : f b with
    | error e => rw [hb] at h; exact ⟨[], b, l, rfl, by simp, hb.trans h⟩
    | ok found =>
      rw [hb] at h
      cases found with
      | some c => exact ⟨[], b, l, rfl, by simp, hb.trans h⟩
      | none =>
        obtain ⟨before, a, after, rfl, hbefore, ha⟩ := exists_of_findSomeM? hr h
        exact ⟨b :: before, a, after, rfl, by simpa [hb] using hbefore, ha⟩

/-- A search through items that find nothing or fail with `e` does the same. -/
theorem findSomeM?_none_or {e : ε} : ∀ {l : List α}, (∀ a ∈ l, f a = .ok none ∨ f a = .error e) →
    l.findSomeM? f = .ok none ∨ l.findSomeM? f = .error e
  | [], _ => .inl rfl
  | b :: l, h => by
    rw [List.findSomeM?_cons]
    rcases h b (by simp) with hb | hb
    · rw [hb]
      exact findSomeM?_none_or fun a ha => h a (by simp [ha])
    · rw [hb]
      exact .inr rfl

theorem findSomeM?_error_or {e e' : ε} {a : α} : ∀ {before : List α},
    (∀ b ∈ before, f b = .ok none ∨ f b = .error e) → f a = .error e' → ∀ after : List α,
      (before ++ a :: after).findSomeM? f = .error e' ∨ (before ++ a :: after).findSomeM? f = .error e
  | [], _, ha, _ => .inl (by rw [List.nil_append, List.findSomeM?_cons, ha]; rfl)
  | b :: before, h, ha, after => by
    rw [List.cons_append, List.findSomeM?_cons]
    rcases h b (by simp) with hb | hb
    · rw [hb]
      exact findSomeM?_error_or (fun c hc => h c (by simp [hc])) ha after
    · rw [hb]
      exact .inr rfl

end First

/-! ## The way of a search -/

namespace View

variable {v : View} {name : String}

/-- What a search in the package of an import comes to, in order: its files, or a directory that cannot be
listed. -/
def behindImport (v : View) (file : File) (path : String) : List (Except Error File) :=
  match v.paths.packageDir? v.disk file.directory path with
  | none => []
  | some dir =>
    match v.disk.sourceFiles? dir false with
    | none => [.error (.unlistable dir)]
    | some paths => paths.map v.load

/-- What a search behind the dot imports of a file comes to, in order. -/
def behind (v : View) (file : File) : List (Except Error File) :=
  file.dotImports.flatMap (v.behindImport file)

/-- Neither the file nor a sibling declares the name. -/
def Lacks (v : View) (name : String) (file : File) : Prop :=
  file.struct? name = none ∧
    ∃ siblings, v.siblings file = .ok siblings ∧ ∀ sibling ∈ siblings, sibling.struct? name = none

/-- The search for the name goes on from the file, behind its dot imports, while the directories are under search. -/
structure GoesOn (v : View) (name : String) (dirs : List Path) (file : File) : Prop where
  fresh : dirs.any file.directory.same = false
  lacks : v.Lacks name file

/-- From the file on, the name is nowhere, and no directory under search is met again. -/
inductive Blank (v : View) (name : String) : List Path → File → Prop
  | mk {dirs : List Path} {file : File} (goesOn : GoesOn v name dirs file)
      (listed : ∀ e, .error e ∉ v.behind file)
      (blank : ∀ candidate, .ok candidate ∈ v.behind file → Blank v name (file.directory :: dirs) candidate) :
      Blank v name dirs file

/-- From the file on, a directory under search is met again before the name is. -/
inductive Back (v : View) (name : String) : List Path → File → Prop
  | here {dirs : List Path} {file : File} (met : dirs.any file.directory.same = true) : Back v name dirs file
  | behind {dirs : List Path} {file candidate : File} {before after : List (Except Error File)}
      (goesOn : GoesOn v name dirs file) (split : v.behind file = before ++ .ok candidate :: after)
      (listed : ∀ e, .error e ∉ before)
      (blank : ∀ earlier, .ok earlier ∈ before → Blank v name (file.directory :: dirs) earlier)
      (back : Back v name (file.directory :: dirs) candidate) : Back v name dirs file

variable {next : File → String → Except Error (Option (File × Struct))} {file : File}

theorem inImport_eq_behindImport (path : String) :
    v.inImport next file path none name =
      (v.behindImport file path).findSomeM? fun step => step >>= (next · name) := by
  unfold inImport behindImport View.sources
  cases v.paths.packageDir? v.disk file.directory path with
  | none => rfl
  | some dir =>
    cases hsources : v.disk.sourceFiles? dir false with
    | none => simp only [hsources]; rfl
    | some paths => simp only [hsources]; rw [findSomeM?_map]; rfl

theorem bareName_eq_behind (h : v.Lacks name file) :
    v.bareName next file name = (v.behind file).findSomeM? fun step => step >>= (next · name) := by
  obtain ⟨hown, siblings, hsiblings, hnone⟩ := h
  have hfile : inFile name file = none := by simp [inFile, hown]
  have hfind : siblings.findSome? (inFile name) = none := by
    refine List.findSome?_eq_none_iff.2 fun sibling hsibling => ?_
    simp [inFile, hnone sibling hsibling]
  rw [behind, findSomeM?_flatMap, bareName, hfile, hsiblings]
  simp only [bind, Except.bind, hfind]
  congr 1
  funext path
  exact inImport_eq_behindImport path

theorem struct?_name {struct : Struct} (h : file.struct? name = some struct) : struct.name = name := by
  simpa using List.find?_some h

theorem text?_of_sourceFiles?_none {dir : Path} (h : v.disk.sourceFiles? dir false = none) : dir.text? = none :=
  Option.map_eq_none_iff.1 h

theorem exists_mapM_load : ∀ {paths : List Path}, (∀ path ∈ paths, ∃ file, v.load path = .ok file) →
    ∃ files, paths.mapM v.load = .ok files
  | [], _ => ⟨[], rfl⟩
  | path :: rest, h => by
    obtain ⟨file, hfile⟩ := h path (by simp)
    have hrest : ∀ p ∈ rest, ∃ file, v.load p = .ok file := fun p hp => h p (by simp [hp])
    obtain ⟨files, hfiles⟩ := exists_mapM_load hrest
    exact ⟨file :: files, by rw [List.mapM_cons, hfile, hfiles]; rfl⟩

/-- Where all listed sources can be read, siblings are there unless their directory cannot be listed. -/
theorem siblings_cases (hread : ∀ source, v.disk.IsListed source → ∃ file, v.load source = .ok file) (file : File) :
    (∃ siblings, v.siblings file = .ok siblings) ∨
      ∃ dir, dir.text? = none ∧ v.siblings file = .error (.unlistable dir) := by
  unfold siblings View.sources
  cases hsources : v.disk.sourceFiles? file.directory false with
  | none => exact .inr ⟨_, text?_of_sourceFiles?_none hsources, rfl⟩
  | some paths =>
    have hothers : ∀ path ∈ paths.filter fun path => !(v.disk.canonicalOrSelf path).same file.location,
        ∃ file, v.load path = .ok file :=
      fun path hpath => hread path (Disk.isListed_of_mem_filter hsources path hpath)
    obtain ⟨files, hfiles⟩ := exists_mapM_load hothers
    exact .inl ⟨_, by simp only [bind, Except.bind, hfiles]; rfl⟩

/-- A search in a file ends there, with a struct of the name or a directory that cannot be listed, or goes on behind
the dot imports. -/
theorem bareName_cases (hread : ∀ source, v.disk.IsListed source → ∃ file, v.load source = .ok file)
    (next : File → String → Except Error (Option (File × Struct))) (name : String) (file : File) :
    (∃ found, v.bareName next file name = .ok (some found) ∧ found.2.name = name) ∨
    (∃ dir, dir.text? = none ∧ v.bareName next file name = .error (.unlistable dir)) ∨
    v.Lacks name file := by
  cases hown : file.struct? name with
  | some struct =>
    refine .inl ⟨(file, struct), ?_, struct?_name hown⟩
    simp only [bareName, inFile, hown, Option.map_some]
    rfl
  | none =>
    have hfile : inFile name file = none := by simp [inFile, hown]
    rcases siblings_cases hread file with ⟨siblings, hsiblings⟩ | ⟨dir, htext, hsiblings⟩
    · cases hfind : siblings.findSome? (inFile name) with
      | some found =>
        refine .inl ⟨found, ?_, ?_⟩
        · simp only [bareName, hfile, hsiblings, bind, Except.bind, hfind]; rfl
        · obtain ⟨sibling, -, hsibling⟩ := List.exists_of_findSome?_eq_some hfind
          obtain ⟨struct, hstruct, rfl⟩ := Option.map_eq_some_iff.1 hsibling
          exact struct?_name hstruct
      | none =>
        refine .inr (.inr ⟨hown, siblings, hsiblings, fun sibling hsibling => ?_⟩)
        simpa [inFile] using List.findSome?_eq_none_iff.1 hfind sibling hsibling
    · refine .inr (.inl ⟨dir, htext, ?_⟩)
      simp only [bareName, hfile, hsiblings, bind, Except.bind]

theorem typeTextWithin_bare {text : String} (hparse : TypeRef.parse? text = some (.ofLocal name))
    (beyond : Except Error (Option (File × Struct))) (depth : Nat) (dirs : List Path) (file : File) :
    v.typeTextWithin beyond (depth + 1) (dirs.map (·, name)) file text =
      if dirs.any file.directory.same then .error (.cyclicReference file.directory name)
      else v.bareName (v.typeTextWithin beyond depth ((file.directory :: dirs).map (·, name))) file name := by
  have hany : (dirs.map (·, name)).any (Session.sameKey (file.directory, name)) =
      dirs.any file.directory.same := by
    simp [List.any_map, Function.comp_def, Session.sameKey]
  simp only [typeTextWithin, hparse, TypeRef.ofLocal, TypeRef.display, hany, reference, List.map_cons]

section Outcome

variable (hparse : TypeRef.parse? name = some (.ofLocal name)) {e : Error}

include hparse

/-- A search that finds nothing says so, unless it runs out of depth. -/
theorem Blank.outcome {dirs : List Path} {file : File} (h : v.Blank name dirs file) (depth : Nat) :
    v.typeTextWithin (.error e) depth (dirs.map (·, name)) file name = .ok none ∨
      v.typeTextWithin (.error e) depth (dirs.map (·, name)) file name = .error e := by
  induction h generalizing depth with
  | @mk dirs file goesOn listed blank ih =>
    cases depth with
    | zero => exact .inr rfl
    | succ depth =>
      rw [typeTextWithin_bare hparse, goesOn.fresh, if_neg Bool.false_ne_true, bareName_eq_behind goesOn.lacks]
      refine findSomeM?_none_or fun step hstep => ?_
      cases step with
      | error cause => exact absurd hstep (listed cause)
      | ok candidate => exact ih candidate hstep depth

/-- A search that comes back reports a cycle, unless it runs out of depth. -/
theorem Back.outcome {dirs : List Path} {file : File} (h : v.Back name dirs file) (depth : Nat) :
    (∃ dir, v.typeTextWithin (.error e) depth (dirs.map (·, name)) file name =
        .error (.cyclicReference dir name)) ∨
      v.typeTextWithin (.error e) depth (dirs.map (·, name)) file name = .error e := by
  induction h generalizing depth with
  | @here dirs file met =>
    cases depth with
    | zero => exact .inr rfl
    | succ depth => exact .inl ⟨file.directory, by rw [typeTextWithin_bare hparse, if_pos met]⟩
  | @behind dirs file candidate before after goesOn split listed blank back ih =>
    cases depth with
    | zero => exact .inr rfl
    | succ depth =>
      have hearlier : ∀ step ∈ before, (step >>= fun c => v.typeTextWithin (.error e) depth
            ((file.directory :: dirs).map (·, name)) c name) = .ok none ∨
          (step >>= fun c => v.typeTextWithin (.error e) depth
            ((file.directory :: dirs).map (·, name)) c name) = .error e := by
        intro step hstep
        cases step with
        | error cause => exact absurd hstep (listed cause)
        | ok earlier => exact (blank earlier hstep).outcome hparse depth
      rw [typeTextWithin_bare hparse, goesOn.fresh, if_neg Bool.false_ne_true, bareName_eq_behind goesOn.lacks,
        split]
      rcases ih depth with ⟨dir, hdir⟩ | hdeep
      · exact (findSomeM?_error_or hearlier hdir after).imp_left fun hback => ⟨dir, hback⟩
      · exact .inr ((findSomeM?_error_or hearlier hdeep after).elim id id)

end Outcome

/-- The outcome of a request, from that of its search. -/
def answer (text : String) : Except Error (Option (File × Struct)) → Except Error (File × Struct)
  | .ok (some found) => .ok found
  | .ok none => .error (.typeNotFound text)
  | .error e => .error e

section Answer

variable {text : String} (hparse : TypeRef.parse? text = some (.ofLocal name))
  (hread : ∀ source, v.disk.IsListed source → ∃ file, v.load source = .ok file)
  {outcome : Except Error (File × Struct)} {depth : Nat} {file : File} (hdepth : 0 < depth)
  (houtcome : ∀ beyond, outcome = v.extractType beyond depth file text)

include hparse hread hdepth houtcome

end Answer

end View

/-! ## Requests -/

open Search

variable {s : Session}

end GoOutline
