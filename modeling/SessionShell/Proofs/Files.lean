import SessionShell.Proofs.Existence

namespace SessionShell

open Text.Utf8 (Bytes)

/-- Whether a name stands for an entry of its own in a directory. -/
structure Files.IsEntryName (name : String) : Prop where
  ne_empty : name ≠ ""
  ne_self : name ≠ "."
  ne_parent : name ≠ ".."
  noSlash : '/' ∉ name.toList

theorem Files.isEntryName_of_head {name : String} {c : Char}
    (hhead : name.toList.head? = some c) (hc : c ≠ '.') (hslash : '/' ∉ name.toList) :
    IsEntryName name := by
  refine ⟨?_, ?_, ?_, hslash⟩
  · rintro rfl
    cases hhead
  · rintro rfl
    exact hc (Option.some.inj hhead).symm
  · rintro rfl
    exact hc (Option.some.inj hhead).symm

theorem Files.IsEntryName.answers {name : String} {d : Directory} (h : IsEntryName name)
    (hsearch : d.unsearchable = none) (hshort : name.utf8ByteSize ≤ 255) :
    d.Answers name (d.entries.lookup name) :=
  ⟨hsearch, h.ne_empty, h.ne_self, h.ne_parent, hshort, rfl⟩

namespace FileTree

variable {name : String}

theorem components_of_noSlash (h : '/' ∉ name.toList) : components name = [name] := by
  simp [components, List.splitOn_eq_singleton h]

theorem components_append_slash (dir : String) (h : '/' ∉ name.toList) :
    components (dir ++ "/" ++ name) = components dir ++ [name] := by
  rw [← components_of_noSlash h]
  unfold components
  rw [String.toList_append, String.toList_append, List.append_assoc]
  show ((dir.toList ++ '/' :: name.toList).splitOn '/').map String.ofList = _
  rw [List.splitOn_append_cons_self, List.map_append]

/-- A name is joined to a path as its last component, in place of an empty one. -/
theorem components_join (dir : String) (h : '/' ∉ name.toList) :
    ∃ cs, components (Files.join dir name) = cs ++ [name] ∧
      (components dir = cs ∨ components dir = cs ++ [""]) := by
  unfold Files.join
  split
  · rename_i hdir
    rcases Bool.or_eq_true_iff.1 hdir with hempty | hslash
    · rw [String.isEmpty_iff.1 hempty]
      exact ⟨[], by simp [components_of_noSlash h], .inr rfl⟩
    · -- the last component of a path that ends in a slash is empty
      obtain ⟨cs, hcs⟩ := List.getLast?_eq_some_iff.1 (of_decide_eq_true hslash)
      have hdir : dir = String.ofList cs ++ "/" := String.toList_injective (by simpa using hcs)
      refine ⟨components (String.ofList cs), ?_, .inr ?_⟩
      · rw [hdir]
        exact components_append_slash _ h
      · have hempty : '/' ∉ ("" : String).toList := by simp
        have hlast := components_append_slash (String.ofList cs) hempty
        rwa [String.append_empty, ← hdir] at hlast
  · exact ⟨components dir, components_append_slash dir h, .inl rfl⟩

theorem head?_join (dir : String) (h : '/' ∉ name.toList) :
    (Files.join dir name).toList.head? = some '/' ↔ dir.toList.head? = some '/' := by
  cases hdir : dir.toList with
  | nil =>
    obtain rfl : dir = "" := String.toList_injective hdir
    have hname : name.toList.head? ≠ some '/' := fun hhead => h (List.mem_of_head? hhead)
    simpa [Files.join] using hname
  | cons c cs =>
    unfold Files.join
    split <;> simp [hdir]

theorem start_join (tree : FileTree) (p : Place) (dir : String) (h : '/' ∉ name.toList) :
    tree.start p (Files.join dir name) = tree.start p dir := by
  unfold start
  simp only [head?_join dir h]

theorem read_eq (tree : FileTree) (path : String) :
    tree.read path = (tree.find path).bind Place.content := rfl

theorem Step.append {tree : FileTree} {w w' : Walk} (h : tree.Step w w') (more : List String) :
    tree.Step { w with names := w.names ++ more } { w' with names := w'.names ++ more } := by
  cases h with
  | name h => exact .name h
  | link h hbegins =>
    rw [List.append_assoc]
    exact .link h hbegins

theorem Stuck.append {w : Walk} {e : FileError} (h : Stuck w e) (more : List String) :
    Stuck { w with names := w.names ++ more } e := by
  cases h with
  | behindFile content n name rest => exact .behindFile content n name (rest ++ more)
  | refused hname hsearch => exact .refused hname hsearch
  | tooLong hsearch hlong => exact .tooLong hsearch hlong
  | missing h => exact .missing h
  | tooManyLinks h => exact .tooManyLinks h

section

variable {tree : FileTree} {p q : Place} {n : Nat} {names : List String}

theorem steps_append {w w' : Walk} (h : Relation.ReflTransGen tree.Step w w')
    (more : List String) :
    Relation.ReflTransGen tree.Step { w with names := w.names ++ more }
      { w' with names := w'.names ++ more } := by
  induction h with
  | refl => exact .refl
  | tail _ hstep ih => exact ih.tail (hstep.append more)

theorem walk_append_error {e : FileError} (h : tree.walk n p names = .error e)
    (more : List String) : tree.walk n p (names ++ more) = .error e := by
  obtain ⟨w, hw, he⟩ := walk_eq_error_iff.1 h
  exact walk_eq_error_iff.2 ⟨_, steps_append hw more, he.append more⟩

/-- Further names are taken from where the first ones lead, with the links that are left. -/
theorem walk_append_ok (h : tree.walk n p names = .ok q) :
    ∃ m, ∀ more, tree.walk n p (names ++ more) = tree.walk m q more := by
  obtain ⟨m, hm⟩ := walk_eq_ok_iff.1 h
  exact ⟨m, fun more => run_of_steps (steps_append hm more)⟩

end

/-- The names on the path of an entry: those of its directory, and then its own. -/
theorem reach_join (h : '/' ∉ name.toList) (tree : FileTree) (dir : String) :
    (∀ e, tree.reach dir = .error e → tree.reach (Files.join dir name) = .error e) ∧
    ∀ p, tree.reach dir = .ok p → ∃ m, tree.reach (Files.join dir name) = tree.walk m p [name] := by
  unfold reach
  rw [start_join tree _ dir h]
  obtain ⟨cs, hjoin, hdir | hdir⟩ := components_join dir h <;> rw [hjoin, hdir]
  · refine ⟨fun e he => walk_append_error he _, fun p hp => ?_⟩
    obtain ⟨m, hm⟩ := walk_append_ok hp
    exact ⟨m, hm _⟩
  · -- the path of the directory ends in a slash
    cases hcs : tree.walk maxLinks (tree.start tree.here dir) cs with
    | error e =>
      rw [walk_append_error hcs, walk_append_error hcs]
      exact ⟨fun e' he => he, nofun⟩
    | ok q =>
      obtain ⟨m, hm⟩ := walk_append_ok hcs
      rw [hm, hm]
      cases q with
      | file content =>
        rw [walk_of_stuck tree (.behindFile content m "" []),
          walk_of_stuck tree (.behindFile content m name [])]
        exact ⟨fun e he => he, nofun⟩
      | directory d above =>
        rw [walk_of_goes tree (.stay d above) m]
        refine ⟨nofun, fun p hp => ⟨m, ?_⟩⟩
        cases hp
        rfl

/-- Two entries under a name that are read alike. A link is read as what it leads to, elsewhere. -/
inductive ReadAlike : Option FileNode → Option FileNode → Prop
  | missing : ReadAlike none none
  | file (content : Except String Bytes) : ReadAlike (some (.file content)) (some (.file content))
  | directory {d d' : Directory} (h : d.unreadable = d'.unreadable) :
    ReadAlike (some (.directory d)) (some (.directory d'))

/-- What two paths lead to is alike for those who read entries under some names only. The contents
of directories below, and of all other entries, may differ. -/
inductive Alike (names : String → Prop) :
    Except FileError Place → Except FileError Place → Prop
  | unreachable (e : FileError) : Alike names (.error e) (.error e)
  | file (content content' : Except String Bytes) :
    Alike names (.ok (.file content)) (.ok (.file content'))
  | directory {d d' : Directory} {above above' : List Directory}
    (hsearch : d.unsearchable = d'.unsearchable)
    (hentries : ∀ name, names name → ReadAlike (d.entries.lookup name) (d'.entries.lookup name)) :
    Alike names (.ok (.directory d above)) (.ok (.directory d' above'))

namespace Alike

variable {names : String → Prop}

/-- Both directories refuse the name, or both have the same to read under it. -/
theorem content_eq {tree tree' : FileTree} {p p' : Place} (h : Alike names (.ok p) (.ok p'))
    (hname : names name) (hentry : Files.IsEntryName name) (n n' : Nat) :
    (tree.walk n p [name]).bind Place.content = (tree'.walk n' p' [name]).bind Place.content := by
  cases h with
  | file content content' =>
    rw [walk_of_stuck tree (.behindFile content n name []),
      walk_of_stuck tree' (.behindFile content' n' name [])]
  | @directory d d' above above' hsearch hentries =>
    cases hs : d.unsearchable with
    | some reason =>
      rw [walk_of_stuck tree (.refused hentry.ne_empty hs),
        walk_of_stuck tree' (.refused hentry.ne_empty (hsearch ▸ hs))]
    | none =>
      have hs' : d'.unsearchable = none := hsearch ▸ hs
      by_cases hlong : 255 < name.utf8ByteSize
      · rw [walk_of_stuck tree (.tooLong hs hlong), walk_of_stuck tree' (.tooLong hs' hlong)]
      have hshort := Nat.not_lt.1 hlong
      have hanswers := hentry.answers hs hshort
      have hanswers' := hentry.answers hs' hshort
      have halike := hentries name hname
      generalize d.entries.lookup name = found, d'.entries.lookup name = found' at *
      cases halike with
      | missing =>
        rw [walk_of_stuck tree (.missing hanswers), walk_of_stuck tree' (.missing hanswers')]
      | file content =>
        rw [walk_of_goes tree (.file hanswers), walk_of_goes tree' (.file hanswers')]
      | directory h =>
        rw [walk_of_goes tree (.down hanswers), walk_of_goes tree' (.down hanswers')]
        simp only [Except.bind, Place.content, h]

theorem read_join {tree tree' : FileTree} {dir : String}
    (h : Alike names (tree.reach dir) (tree'.reach dir)) (hname : names name)
    (hentry : Files.IsEntryName name) :
    tree.read (Files.join dir name) = tree'.read (Files.join dir name) := by
  have hcontent : (tree.reach (Files.join dir name)).bind Place.content =
      (tree'.reach (Files.join dir name)).bind Place.content := by
    obtain ⟨herror, hok⟩ := reach_join hentry.noSlash tree dir
    obtain ⟨herror', hok'⟩ := reach_join hentry.noSlash tree' dir
    generalize tree.reach dir = found, tree'.reach dir = found' at *
    cases found with
    | error e =>
      cases h with
      | unreachable => rw [herror e rfl, herror' e rfl]
    | ok p =>
      obtain ⟨p', rfl⟩ : ∃ p', found' = .ok p' := by cases h <;> exact ⟨_, rfl⟩
      obtain ⟨n, hn⟩ := hok p rfl
      obtain ⟨n', hn'⟩ := hok' p' rfl
      rw [hn, hn']
      exact h.content_eq hname hentry n n'
  rw [read_eq, read_eq, find_eq, find_eq]
  split
  · rfl
  · split
    · rfl
    · split
      · rfl
      · exact hcontent

end Alike
end FileTree
end SessionShell
