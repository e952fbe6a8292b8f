import Mathlib.Tactic.ByContra
import SessionShell.Run.Loop

namespace SessionShell

/-- Who is asked about a name: a provider, or those who know the commands from outside. -/
inductive Inquiry
  | provider (p : Provider)
  | external

section

variable {m : Type → Type} [Monad m]

/-- Asks providers in order, where each answers by an action. -/
def loadFirstBy (ask : Provider → m (Except LoadError Module)) :
    List Provider → m (Except LoadError Module)
  | [] => pure (.error .absent)
  | p :: ps => do
    match ← ask p with
    | .error .absent => loadFirstBy ask ps
    | answer => pure answer

/-- Resolves a name, where all who are asked answer by actions. -/
def Resolver.resolveBy (ask : Provider → m (Except LoadError Module)) (find : m (Option Module))
    (r : Resolver) (name : String) : m (Except String Resolution) :=
  if name.isEmpty then pure (.ok .unresolved)
  else
    match Builtin.ofName? name with
    | some b => pure (.ok (.builtin b))
    | none => do
      match ← loadFirstBy ask r.providers with
      | .ok m => pure (.ok (.core m))
      | .error (.failed reason) => pure (.error reason)
      | .error .absent => return .ok ((← find).elim .unresolved .external)

end

/-- Gives an answer, and notes who was asked. -/
def noted {α : Type} (i : Inquiry) (answer : α) : StateM (List Inquiry) α :=
  modifyGet fun asked => (answer, asked ++ [i])

/-- Resolves a name, and lists all who were asked in the order in which they were. -/
def Resolver.inquire (r : Resolver) (name : String) : Except String Resolution × List Inquiry :=
  (r.resolveBy (fun p => noted (.provider p) (p.load name)) (noted .external (r.external name))
    name).run []

/-- How a name is decided: what it resolves to, and who is asked. -/
inductive Resolver.Decided (r : Resolver) (name : String) :
    Except String Resolution → List Inquiry → Prop
  | nameless (hname : name = "") : Decided r name (.ok .unresolved) []
  | builtin {b : Builtin} (hname : b.name = name) : Decided r name (.ok (.builtin b)) []
  | core {before after : List Provider} {p : Provider} {m : Module} (hname : name ≠ "")
    (hbuiltin : ∀ b : Builtin, b.name ≠ name) (hp : r.providers = before ++ p :: after)
    (hbefore : ∀ q ∈ before, q.load name = .error .absent) (hload : p.load name = .ok m) :
    Decided r name (.ok (.core m)) ((before ++ [p]).map .provider)
  | failed {before after : List Provider} {p : Provider} {reason : String} (hname : name ≠ "")
    (hbuiltin : ∀ b : Builtin, b.name ≠ name) (hp : r.providers = before ++ p :: after)
    (hbefore : ∀ q ∈ before, q.load name = .error .absent)
    (hload : p.load name = .error (.failed reason)) :
    Decided r name (.error reason) ((before ++ [p]).map .provider)
  | outside (hname : name ≠ "") (hbuiltin : ∀ b : Builtin, b.name ≠ name)
    (habsent : ∀ p ∈ r.providers, p.load name = .error .absent) :
    Decided r name (.ok ((r.external name).elim .unresolved .external))
      (r.providers.map .provider ++ [.external])

variable {ps before after : List Provider} {p : Provider} {name : String} {asked : List Inquiry}

theorem loadFirst_append (ps qs : List Provider) (name : String) :
    loadFirst (ps ++ qs) name = match loadFirst ps name with
      | .error .absent => loadFirst qs name
      | answer => answer := by
  induction ps with
  | nil => rfl
  | cons p ps ih =>
    rw [List.cons_append, loadFirst, loadFirst]
    cases p.load name with
    | ok m => rfl
    | error e =>
      cases e with
      | absent => exact ih
      | failed reason => rfl

theorem loadFirstBy_pure (ps : List Provider) (name : String) :
    loadFirstBy (m := Id) (fun p => p.load name) ps = loadFirst ps name := by
  induction ps with
  | nil => rfl
  | cons p ps ih =>
    rw [loadFirst, ← ih]
    rfl

theorem loadFirstBy_noted_fst (ps : List Provider) (name : String) (asked : List Inquiry) :
    ((loadFirstBy (fun p => noted (.provider p) (p.load name)) ps).run asked).1 =
      loadFirst ps name := by
  induction ps generalizing asked with
  | nil => rfl
  | cons p ps ih =>
    rw [loadFirstBy, loadFirst]
    rcases hload : p.load name with e | m
    · cases e with
      | absent => exact ih (asked ++ [.provider p])
      | failed reason => rfl
    · rfl

theorem loadFirstBy_noted (hbefore : ∀ q ∈ before, q.load name = .error .absent)
    (rest : List Provider) (asked : List Inquiry) :
    (loadFirstBy (fun p => noted (.provider p) (p.load name)) (before ++ rest)).run asked =
      (loadFirstBy (fun p => noted (.provider p) (p.load name)) rest).run
        (asked ++ before.map .provider) := by
  induction before generalizing asked with
  | nil => rw [List.map_nil, List.append_nil, List.nil_append]
  | cons p before ih =>
    obtain ⟨hp, hbefore⟩ := List.forall_mem_cons.1 hbefore
    have hnext : (loadFirstBy (fun p => noted (.provider p) (p.load name))
        (p :: (before ++ rest))).run asked =
        (loadFirstBy (fun p => noted (.provider p) (p.load name)) (before ++ rest)).run
          (asked ++ [.provider p]) := by
      rw [loadFirstBy, hp]
      rfl
    rw [List.cons_append, hnext, ih hbefore, List.map_cons, List.append_assoc]
    rfl

theorem loadFirstBy_noted_found (hload : p.load name ≠ .error .absent) (after : List Provider)
    (asked : List Inquiry) :
    (loadFirstBy (fun p => noted (.provider p) (p.load name)) (p :: after)).run asked =
      (p.load name, asked ++ [.provider p]) := by
  rw [loadFirstBy]
  rcases h : p.load name with e | m
  · cases e with
    | absent => exact absurd h hload
    | failed reason => rfl
  · rfl

/-- No provider of a list knows a name, or there is a first that does or ought to. -/
theorem exists_first (ps : List Provider) (name : String) :
    (∀ p ∈ ps, p.load name = .error .absent) ∨
      ∃ before p after, ps = before ++ p :: after ∧
        (∀ q ∈ before, q.load name = .error .absent) ∧ p.load name ≠ .error .absent := by
  induction ps with
  | nil => exact .inl (List.forall_mem_nil _)
  | cons p ps ih =>
    by_cases hp : p.load name = .error .absent
    · rcases ih with hall | ⟨before, q, after, rfl, hbefore, hq⟩
      · exact .inl (List.forall_mem_cons.2 ⟨hp, hall⟩)
      · exact .inr ⟨p :: before, q, after, rfl, List.forall_mem_cons.2 ⟨hp, hbefore⟩, hq⟩
    · exact .inr ⟨[], p, ps, rfl, List.forall_mem_nil _, hp⟩

theorem Builtin.ofName?_eq_some {b : Builtin} : Builtin.ofName? name = some b ↔ b.name = name := by
  constructor
  · intro h
    simpa using List.find?_some h
  · rintro rfl
    cases b <;> decide

theorem Builtin.ofName?_eq_none : Builtin.ofName? name = none ↔ ∀ b : Builtin, b.name ≠ name := by
  rw [Option.eq_none_iff_forall_ne_some]
  exact forall_congr' fun b => not_congr Builtin.ofName?_eq_some

theorem Builtin.name_ne_empty (b : Builtin) : b.name ≠ "" := by
  cases b <;> decide

namespace Resolver

variable {r : Resolver} {answer : Except String Resolution}

theorem resolveBy_pure (r : Resolver) (name : String) :
    r.resolveBy (m := Id) (fun p => p.load name) (r.external name) name = r.resolve name := by
  unfold resolveBy resolve
  rw [loadFirstBy_pure]
  rfl

theorem resolveBy_of_unknown {m : Type → Type} [Monad m] (hname : name ≠ "")
    (hbuiltin : ∀ b : Builtin, b.name ≠ name) (ask : Provider → m (Except LoadError Module))
    (find : m (Option Module)) :
    r.resolveBy ask find name = (do
      match ← loadFirstBy ask r.providers with
      | .ok m => pure (.ok (.core m))
      | .error (.failed reason) => pure (.error reason)
      | .error .absent => return .ok ((← find).elim .unresolved .external)) := by
  have hempty : name.isEmpty = false := by simpa using hname
  simp only [resolveBy, hempty, Builtin.ofName?_eq_none.2 hbuiltin]
  rfl

theorem inquire_of_decided (h : r.Decided name answer asked) :
    r.inquire name = (answer, asked) := by
  cases h with
  | nameless hname =>
    subst hname
    rfl
  | @builtin b hname =>
    have hempty : name.isEmpty = false := by simpa [← hname] using b.name_ne_empty
    simp only [inquire, resolveBy, hempty, Builtin.ofName?_eq_some.2 hname]
    rfl
  | core hname hbuiltin hp hbefore hload | failed hname hbuiltin hp hbefore hload =>
    rw [inquire, resolveBy_of_unknown hname hbuiltin, hp, StateT.run_bind,
      loadFirstBy_noted hbefore, loadFirstBy_noted_found (by simp [hload]), hload, List.map_append]
    rfl
  | outside hname hbuiltin habsent =>
    rw [inquire, resolveBy_of_unknown hname hbuiltin, StateT.run_bind,
      ← List.append_nil r.providers, loadFirstBy_noted habsent, List.append_nil]
    rfl

theorem inquire_fst (r : Resolver) (name : String) : (r.inquire name).1 = r.resolve name := by
  unfold inquire resolveBy resolve
  split
  · rfl
  · cases Builtin.ofName? name with
    | some b => rfl
    | none =>
      dsimp only
      rw [StateT.run_bind, ← loadFirstBy_noted_fst r.providers name []]
      rcases (loadFirstBy (fun p => noted (.provider p) (p.load name)) r.providers).run [] with
        ⟨(_ | reason) | m, asked⟩ <;> rfl

theorem exists_decided (r : Resolver) (name : String) :
    ∃ answer asked, r.Decided name answer asked := by
  by_cases hname : name = ""
  · exact ⟨_, _, .nameless hname⟩
  by_cases hbuiltin : ∃ b : Builtin, b.name = name
  · obtain ⟨b, hb⟩ := hbuiltin
    exact ⟨_, _, .builtin hb⟩
  have hbuiltin : ∀ b : Builtin, b.name ≠ name := fun b hb => hbuiltin ⟨b, hb⟩
  rcases exists_first r.providers name with habsent | ⟨before, p, after, hp, hbefore, hload⟩
  · exact ⟨_, _, .outside hname hbuiltin habsent⟩
  · rcases h : p.load name with (_ | reason) | m
    · exact absurd h hload
    · exact ⟨_, _, .failed hname hbuiltin hp hbefore h⟩
    · exact ⟨_, _, .core hname hbuiltin hp hbefore h⟩

theorem asked_eq_nil_iff (h : r.Decided name answer asked) :
    asked = [] ↔ asksProviders name = false := by
  cases h with
  | nameless hname => simp [asksProviders, hname]
  | builtin hname => simp [asksProviders, Builtin.ofName?_eq_some.2 hname]
  | core hname hbuiltin | failed hname hbuiltin | outside hname hbuiltin =>
    simp [asksProviders, hname, Builtin.ofName?_eq_none.2 hbuiltin]

theorem lookUp_of_failed {shell : Shell} {line reason : String}
    (h : shell.resolver.resolve (CommandLine.parse line).command = .error reason) :
    Loop.lookUp shell line =
      .error (some (ShellError.loadFailure (CommandLine.parse line).command reason).message) := by
  have hnamed : (CommandLine.parse line).isEmpty = false := by
    by_contra hempty
    rw [Bool.not_eq_false] at hempty
    have hnone : (CommandLine.parse line).command.isEmpty = true := hempty
    rw [resolve, if_pos hnone] at h
    cases h
  rw [Loop.lookUp, if_neg (by simp [hnamed]), h]

/-- A name is decided without asking anyone if it is empty or that of a built-in command. Otherwise
the providers are asked in order until one knows it or ought to, and that one decides; if none does,
those outside are asked last. A module that cannot be loaded is reported with its reason. -/
theorem inquire_eq_iff (r : Resolver) (name : String) :
    (∀ answer asked, r.inquire name = (answer, asked) ↔ r.Decided name answer asked) ∧
    (r.inquire name).1 = r.resolve name ∧
    r.resolveBy (m := Id) (fun p => p.load name) (r.external name) name = r.resolve name ∧
    ((r.inquire name).2 = [] ↔ asksProviders name = false) ∧
    (∀ ps qs, loadFirst (ps ++ qs) name = match loadFirst ps name with
      | .error .absent => loadFirst qs name
      | answer => answer) ∧
    (∀ found : Resolution, found.handler? = none ↔ found.kind = .unresolved) ∧
    ∀ (shell : Shell) (line reason : String),
      shell.resolver.resolve (CommandLine.parse line).command = .error reason →
      Loop.lookUp shell line =
        .error (some (ShellError.loadFailure (CommandLine.parse line).command reason).message) := by
  obtain ⟨answer, asked, hdecided⟩ := exists_decided r name
  have hinquire := inquire_of_decided hdecided
  refine ⟨fun answer' asked' => ⟨fun h => ?_, inquire_of_decided⟩, inquire_fst r name,
    resolveBy_pure r name, ?_, fun ps qs => loadFirst_append ps qs name, fun found => ?_,
    fun _ _ _ => lookUp_of_failed⟩
  · cases hinquire.symm.trans h
    exact hdecided
  · rw [hinquire]
    exact asked_eq_nil_iff hdecided
  · cases found <;> simp [Resolution.handler?, Resolution.kind]

/-- A module that is there but fails hides those of its name, in a provider after it and outside. -/
theorem inquire_at_failing_module :
    let first : Provider := Catalog.provider ∅
    let second : Provider := ((∅ : Catalog).add "date" (.error "no clock")).provider
    let r : Resolver := ⟨[first, second, Catalog.builtin.provider], fun _ => some .date⟩
    r.inquire "date" = (.error "no clock", [.provider first, .provider second]) ∧
      r.resolve "date" = .error "no clock" ∧
      Loop.lookUp { resolver := r } "date --utc" =
        .error (some "unhandled error while loading \x60date\x60: no clock") := by
  intro first second r
  obtain ⟨hiff, hanswer, -, -, -, -, hreport⟩ := inquire_eq_iff r "date"
  have hproviders : r.providers = [first] ++ second :: [Catalog.builtin.provider] := rfl
  have hbuiltin : ∀ b : Builtin, b.name ≠ "date" := Builtin.ofName?_eq_none.1 (by decide)
  have habsent : ∀ q ∈ [first], q.load "date" = .error .absent := List.forall_mem_singleton.2 rfl
  have hdecided : r.Decided "date" (.error "no clock") [.provider first, .provider second] :=
    .failed (by decide) hbuiltin hproviders habsent rfl
  have hinquire := (hiff _ _).2 hdecided
  rw [hinquire] at hanswer
  refine ⟨hinquire, hanswer.symm, ?_⟩
  have hparse : (CommandLine.parse "date --utc").command = "date" := by decide +kernel
  rw [hreport _ _ "no clock" (hparse ▸ hanswer.symm), hparse]
  rfl

end Resolver
end SessionShell
