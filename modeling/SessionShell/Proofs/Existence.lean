import Mathlib.Logic.Relation
import SessionShell.Files

namespace SessionShell

/-- Looking for a name in a directory finds what stands there under it, or nothing. -/
structure DirectoryOf.Answers (d : Directory) (name : String) (found : Option FileNode) : Prop where
  searchable : d.unsearchable = none
  ne_empty : name ≠ ""
  ne_self : name ≠ "."
  ne_parent : name ≠ ".."
  short : name.utf8ByteSize ≤ 255
  found : d.entries.lookup name = found

/-- A name leads from one place to another without a link. -/
inductive Place.Goes : Place → String → Place → Prop
  | stay (d : Directory) (above : List Directory) :
    Goes (.directory d above) "" (.directory d above)
  | self {d : Directory} {above : List Directory} (hsearch : d.unsearchable = none) :
    Goes (.directory d above) "." (.directory d above)
  | up {d parent : Directory} {above : List Directory} (hsearch : d.unsearchable = none) :
    Goes (.directory d (parent :: above)) ".." (.directory parent above)
  | top {d : Directory} (hsearch : d.unsearchable = none) :
    Goes (.directory d []) ".." (.directory d [])
  | file {d : Directory} {above : List Directory} {name : String}
    {content : Except String Text.Utf8.Bytes} (h : d.Answers name (some (.file content))) :
    Goes (.directory d above) name (.file content)
  | down {d below : Directory} {above : List Directory} {name : String}
    (h : d.Answers name (some (.directory below))) :
    Goes (.directory d above) name (.directory below (d :: above))

/-- A place, how many links may still be followed from it, and the names that are left to take. -/
structure Walk where
  place : Place
  links : Nat
  names : List String

namespace FileTree

/-- Where a path leads from that is met at a place. -/
inductive Begins (tree : FileTree) (p : Place) (path : String) : Place → Prop
  | relative (h : path.toList.head? ≠ some '/') : Begins tree p path p
  | absolute (h : path.toList.head? = some '/') : Begins tree p path (.directory tree.root [])

inductive Step (tree : FileTree) : Walk → Walk → Prop
  | name {p q : Place} {n : Nat} {name : String} {rest : List String} (h : p.Goes name q) :
    Step tree ⟨p, n, name :: rest⟩ ⟨q, n, rest⟩
  | link {d : Directory} {above : List Directory} {n : Nat} {name target : String}
    {rest : List String} {q : Place} (h : d.Answers name (some (.link target)))
    (hbegins : tree.Begins (.directory d above) target q) :
    Step tree ⟨.directory d above, n + 1, name :: rest⟩ ⟨q, n, components target ++ rest⟩

/-- Why a walk does not go on, though names are left. -/
inductive Stuck : Walk → FileError → Prop
  | behindFile (content : Except String Text.Utf8.Bytes) (n : Nat) (name : String)
    (rest : List String) : Stuck ⟨.file content, n, name :: rest⟩ .notDirectory
  | refused {d : Directory} {above : List Directory} {n : Nat} {name reason : String}
    {rest : List String} (hname : name ≠ "") (hsearch : d.unsearchable = some reason) :
    Stuck ⟨.directory d above, n, name :: rest⟩ (.other reason)
  | tooLong {d : Directory} {above : List Directory} {n : Nat} {name : String}
    {rest : List String} (hsearch : d.unsearchable = none) (hlong : 255 < name.utf8ByteSize) :
    Stuck ⟨.directory d above, n, name :: rest⟩ .nameTooLong
  | missing {d : Directory} {above : List Directory} {n : Nat} {name : String}
    {rest : List String} (h : d.Answers name none) :
    Stuck ⟨.directory d above, n, name :: rest⟩ .notFound
  | tooManyLinks {d : Directory} {above : List Directory} {name target : String}
    {rest : List String} (h : d.Answers name (some (.link target))) :
    Stuck ⟨.directory d above, 0, name :: rest⟩ .tooManyLinks

/-- What comes of a walk. -/
def run (tree : FileTree) (w : Walk) : Except FileError Place := tree.walk w.links w.place w.names

variable {tree : FileTree} {w w' : Walk} {p q : Place} {n : Nat} {name : String}
  {rest : List String} {e : FileError}

theorem begins_iff : tree.Begins p name q ↔ tree.start p name = q := by
  unfold start
  constructor
  · rintro (h | h)
    · exact if_neg h
    · exact if_pos h
  · split
    · rintro rfl
      exact .absolute ‹_›
    · rintro rfl
      exact .relative ‹_›

theorem walk_nil (tree : FileTree) (n : Nat) (p : Place) : tree.walk n p [] = .ok p := by
  cases n <;> rfl

theorem walk_cons (tree : FileTree) (n : Nat) (p : Place) (name : String) (rest : List String) :
    tree.walk n p (name :: rest) =
      match p.next name with
      | .error e => .error e
      | .ok (.place q) => tree.walk n q rest
      | .ok (.link target) =>
        match n with
        | 0 => .error .tooManyLinks
        | n + 1 => tree.walk n (tree.start p target) (components target ++ rest) := by
  cases n <;> rfl

theorem next_of_answers {d : Directory} {found : Option FileNode} (h : d.Answers name found)
    (above : List Directory) :
    (Place.directory d above).next name = Place.enter d above found := by
  simp only [Place.next, h.searchable, h.ne_empty, h.ne_self, h.ne_parent, Nat.not_lt.2 h.short,
    h.found, if_false]

theorem next_of_goes (h : p.Goes name q) : p.next name = .ok (.place q) := by
  cases h with
  | stay d above => rfl
  | self hsearch | up hsearch | top hsearch => simp [Place.next, hsearch]
  | file h | down h => exact next_of_answers h _

theorem run_of_step (h : tree.Step w w') : tree.run w = tree.run w' := by
  cases h with
  | name h =>
    unfold run
    rw [walk_cons, next_of_goes h]
  | link h hbegins =>
    unfold run
    rw [walk_cons, next_of_answers h, ← begins_iff.1 hbegins]
    rfl

theorem run_of_stuck (tree : FileTree) (h : Stuck w e) : tree.run w = .error e := by
  unfold run
  cases h with
  | behindFile content n name rest => rw [walk_cons, Place.next]
  | refused hname hsearch => simp [walk_cons, Place.next, hname, hsearch]
  | @tooLong _ _ _ name _ hsearch hlong =>
    have hname : name ≠ "" ∧ name ≠ "." ∧ name ≠ ".." := by
      refine ⟨?_, ?_, ?_⟩ <;> rintro rfl <;> exact absurd hlong (by decide)
    simp [walk_cons, Place.next, hname, hsearch, hlong]
  | missing h | tooManyLinks h =>
    rw [walk_cons, next_of_answers h]
    rfl

theorem walk_of_goes (tree : FileTree) (h : p.Goes name q) (n : Nat) :
    tree.walk n p [name] = .ok q := by
  rw [walk_cons, next_of_goes h]
  exact walk_nil tree n q

theorem walk_of_stuck (tree : FileTree) {names : List String} (h : Stuck ⟨p, n, names⟩ e) :
    tree.walk n p names = .error e := run_of_stuck tree h

theorem goes_or_link_or_stuck (p : Place) (name : String) :
    (∃ q, p.Goes name q) ∨
    (∃ d above target, p = .directory d above ∧ d.Answers name (some (.link target))) ∨
    ∃ e, ∀ n rest, Stuck ⟨p, n, name :: rest⟩ e := by
  cases p with
  | file content => exact .inr (.inr ⟨_, fun n rest => .behindFile content n name rest⟩)
  | directory d above =>
    by_cases hempty : name = ""
    · subst hempty
      exact .inl ⟨_, .stay d above⟩
    cases hsearch : d.unsearchable with
    | some reason => exact .inr (.inr ⟨_, fun n rest => .refused hempty hsearch⟩)
    | none =>
      by_cases hself : name = "."
      · subst hself
        exact .inl ⟨_, .self hsearch⟩
      by_cases hparent : name = ".."
      · subst hparent
        cases above with
        | nil => exact .inl ⟨_, .top hsearch⟩
        | cons parent above => exact .inl ⟨_, .up hsearch⟩
      by_cases hlong : 255 < name.utf8ByteSize
      · exact .inr (.inr ⟨_, fun n rest => .tooLong hsearch hlong⟩)
      have hanswers : d.Answers name (d.entries.lookup name) :=
        ⟨hsearch, hempty, hself, hparent, Nat.not_lt.1 hlong, rfl⟩
      rcases hfound : d.entries.lookup name with _ | (content | below | target) <;>
        rw [hfound] at hanswers
      · exact .inr (.inr ⟨_, fun n rest => .missing hanswers⟩)
      · exact .inl ⟨_, .file hanswers⟩
      · exact .inl ⟨_, .down hanswers⟩
      · exact .inr (.inl ⟨d, above, target, rfl, hanswers⟩)

/-- A walk gets to a place with no name left, or it gets stuck. -/
def Ends (tree : FileTree) (w : Walk) : Prop :=
  (∃ p n, Relation.ReflTransGen tree.Step w ⟨p, n, []⟩) ∨
    ∃ w' e, Relation.ReflTransGen tree.Step w w' ∧ Stuck w' e

theorem Ends.of_step (h : tree.Step w w') : tree.Ends w' → tree.Ends w :=
  Or.imp (fun ⟨p, n, hp⟩ => ⟨p, n, hp.head h⟩) fun ⟨w'', e, hw, he⟩ => ⟨w'', e, hw.head h, he⟩

/-- All walks with as many links left end if those that meet a link do. -/
theorem ends_of_link
    (hlink : ∀ {d : Directory} {above : List Directory} {name target : String}
      {rest : List String}, d.Answers name (some (.link target)) →
      tree.Ends ⟨.directory d above, n, name :: rest⟩) (p : Place) (names : List String) :
    tree.Ends ⟨p, n, names⟩ := by
  induction names generalizing p with
  | nil => exact .inl ⟨p, n, .refl⟩
  | cons name rest ih =>
    obtain ⟨q, hgoes⟩ | ⟨d, above, target, rfl, hanswers⟩ | ⟨e, hstuck⟩ :=
      goes_or_link_or_stuck p name
    · exact (ih q).of_step (.name hgoes)
    · exact hlink hanswers
    · exact .inr ⟨_, e, .refl, hstuck n rest⟩

theorem ends (tree : FileTree) (n : Nat) (p : Place) (names : List String) :
    tree.Ends ⟨p, n, names⟩ := by
  induction n generalizing p names with
  | zero => exact ends_of_link (fun hanswers => .inr ⟨_, _, .refl, .tooManyLinks hanswers⟩) p names
  | succ n ih =>
    -- the target may add any number of names, but a link has been used up
    refine ends_of_link (fun hanswers => ?_) p names
    exact (ih _ _).of_step (.link hanswers (begins_iff.2 rfl))

theorem run_of_steps (h : Relation.ReflTransGen tree.Step w w') : tree.run w = tree.run w' := by
  induction h with
  | refl => rfl
  | tail _ hstep ih => rw [ih, run_of_step hstep]

theorem walk_eq_ok_iff {names : List String} :
    tree.walk n p names = .ok q ↔
      ∃ m, Relation.ReflTransGen tree.Step ⟨p, n, names⟩ ⟨q, m, []⟩ := by
  have hend {q : Place} {m : Nat} (h : Relation.ReflTransGen tree.Step ⟨p, n, names⟩ ⟨q, m, []⟩) :
      tree.walk n p names = .ok q := (run_of_steps h).trans (walk_nil tree m q)
  refine ⟨fun h => ?_, fun ⟨m, hm⟩ => hend hm⟩
  obtain ⟨q', m, hm⟩ | ⟨w, e, hw, he⟩ := tree.ends n p names
  · cases h.symm.trans (hend hm)
    exact ⟨m, hm⟩
  · cases h.symm.trans ((run_of_steps hw).trans (run_of_stuck tree he))

theorem walk_eq_error_iff {names : List String} :
    tree.walk n p names = .error e ↔
      ∃ w, Relation.ReflTransGen tree.Step ⟨p, n, names⟩ w ∧ Stuck w e := by
  have hend {w : Walk} {e : FileError} (hw : Relation.ReflTransGen tree.Step ⟨p, n, names⟩ w)
      (he : Stuck w e) : tree.walk n p names = .error e :=
    (run_of_steps hw).trans (run_of_stuck tree he)
  refine ⟨fun h => ?_, fun ⟨w, hw, he⟩ => hend hw he⟩
  obtain ⟨q, m, hm⟩ | ⟨w, e', hw, he⟩ := tree.ends n p names
  · cases h.symm.trans ((run_of_steps hm).trans (walk_nil tree m q))
  · cases h.symm.trans (hend hw he)
    exact ⟨w, hw, he⟩

/-- The walk along a path. -/
def Reaches (tree : FileTree) (path : String) (w : Walk) : Prop :=
  ∃ p, tree.Begins tree.here path p ∧
    Relation.ReflTransGen tree.Step ⟨p, maxLinks, components path⟩ w

/-- What a path leads to. -/
def Stands (tree : FileTree) (path : String) (p : Place) : Prop := ∃ n, tree.Reaches path ⟨p, n, []⟩

/-- Why a path cannot be followed, other than that an entry on it is missing. -/
inductive Barred (tree : FileTree) (path : String) : FileError → Prop
  | nul (hnul : '\x00' ∈ path.toList) : Barred tree path .nulInPath
  | tooLong (hnul : '\x00' ∉ path.toList) (hlong : 4096 ≤ path.utf8ByteSize) :
    Barred tree path .nameTooLong
  | stuck {w : Walk} {e : FileError} (hnul : '\x00' ∉ path.toList)
    (hshort : path.utf8ByteSize < 4096) (he : e ≠ .notFound) (hreaches : tree.Reaches path w)
    (hstuck : Stuck w e) : Barred tree path e

section

variable {path : String}

theorem reaches_iff :
    tree.Reaches path w ↔ Relation.ReflTransGen tree.Step
      ⟨tree.start tree.here path, maxLinks, components path⟩ w := by
  constructor
  · rintro ⟨p, hp, hw⟩
    rwa [begins_iff.1 hp]
  · exact fun hw => ⟨_, begins_iff.2 rfl, hw⟩

/-- What a path leads to, whatever the path is made of. -/
def reach (tree : FileTree) (path : String) : Except FileError Place :=
  tree.walk maxLinks (tree.start tree.here path) (components path)

theorem reach_eq_ok_iff : tree.reach path = .ok p ↔ tree.Stands path p := by
  unfold Stands reach
  simp only [walk_eq_ok_iff, reaches_iff]

theorem reach_eq_error_iff :
    tree.reach path = .error e ↔ ∃ w, tree.Reaches path w ∧ Stuck w e := by
  unfold reach
  simp only [walk_eq_error_iff, reaches_iff]

theorem find_eq (tree : FileTree) (path : String) :
    tree.find path =
      if path.toList.contains '\x00' then .error .nulInPath
      else if path.isEmpty then .error .notFound
      else if 4096 ≤ path.utf8ByteSize then .error .nameTooLong
      else tree.reach path := rfl

theorem find_of_short (hnul : '\x00' ∉ path.toList) (hne : path ≠ "")
    (hshort : path.utf8ByteSize < 4096) : tree.find path = tree.reach path := by
  rw [find_eq, if_neg (by simpa using hnul), if_neg (by simpa using hne),
    if_neg (Nat.not_le.2 hshort)]

theorem find_of_barred (hne : path ≠ "") (h : tree.Barred path e) : tree.find path = .error e := by
  cases h with
  | nul hnul => rw [find_eq, if_pos (by simpa using hnul)]
  | tooLong hnul hlong =>
    rw [find_eq, if_neg (by simpa using hnul), if_neg (by simpa using hne), if_pos hlong]
  | stuck hnul hshort he hreaches hstuck =>
    rw [find_of_short hnul hne hshort]
    exact reach_eq_error_iff.2 ⟨_, hreaches, hstuck⟩

theorem Barred.ne_notFound (h : tree.Barred path e) : e ≠ .notFound := by
  cases h with
  | nul | tooLong => nofun
  | stuck _ _ he => exact he

/-- Where a path can be followed, something stands at its end, or an entry on it is missing. -/
theorem find_of_open (hne : path ≠ "") (hopen : ∀ e, ¬tree.Barred path e) :
    (∃ p, tree.Stands path p ∧ tree.find path = .ok p) ∨
      (∀ p, ¬tree.Stands path p) ∧ tree.find path = .error .notFound := by
  have hnul : '\x00' ∉ path.toList := fun h => hopen _ (.nul h)
  have hshort : path.utf8ByteSize < 4096 := Nat.not_le.1 fun h => hopen _ (.tooLong hnul h)
  rw [find_of_short hnul hne hshort]
  cases hreach : tree.reach path with
  | ok p => exact .inl ⟨p, reach_eq_ok_iff.1 hreach, rfl⟩
  | error e =>
    obtain ⟨w, hw, he⟩ := reach_eq_error_iff.1 hreach
    by_cases hmissing : e = .notFound
    · subst hmissing
      refine .inr ⟨fun p hp => ?_, rfl⟩
      cases hreach.symm.trans (reach_eq_ok_iff.2 hp)
    · exact absurd (.stuck hnul hshort hmissing hw he) (hopen e)

theorem find_eq_ok_iff (hne : path ≠ "") :
    tree.find path = .ok p ↔ tree.Stands path p ∧ ∀ e, ¬tree.Barred path e := by
  constructor
  · intro h
    have hopen : ∀ e, ¬tree.Barred path e := fun e he => by
      cases h.symm.trans (find_of_barred hne he)
    obtain ⟨q, hstands, hfind⟩ | ⟨-, hfind⟩ := find_of_open hne hopen
    · cases h.symm.trans hfind
      exact ⟨hstands, hopen⟩
    · cases h.symm.trans hfind
  · rintro ⟨hstands, hopen⟩
    obtain ⟨q, hstands', hfind⟩ | ⟨hnone, -⟩ := find_of_open hne hopen
    · cases (reach_eq_ok_iff.2 hstands).symm.trans (reach_eq_ok_iff.2 hstands')
      exact hfind
    · exact absurd hstands (hnone p)

theorem find_eq_error_iff (hne : path ≠ "") :
    tree.find path = .error e ↔ tree.Barred path e ∨
      e = .notFound ∧ (∀ p, ¬tree.Stands path p) ∧ ∀ e, ¬tree.Barred path e := by
  constructor
  · intro h
    by_cases hbarred : ∃ e, tree.Barred path e
    · obtain ⟨e', he'⟩ := hbarred
      cases h.symm.trans (find_of_barred hne he')
      exact .inl he'
    · have hopen : ∀ e, ¬tree.Barred path e := fun e he => hbarred ⟨e, he⟩
      obtain ⟨p, -, hfind⟩ | ⟨hnone, hfind⟩ := find_of_open hne hopen
      · cases h.symm.trans hfind
      · cases h.symm.trans hfind
        exact .inr ⟨rfl, hnone, hopen⟩
  · rintro (hbarred | ⟨rfl, hnone, hopen⟩)
    · exact find_of_barred hne hbarred
    · obtain ⟨p, hstands, -⟩ | ⟨-, hfind⟩ := find_of_open hne hopen
      · exact absurd hstands (hnone p)
      · exact hfind

end

end FileTree
end SessionShell
