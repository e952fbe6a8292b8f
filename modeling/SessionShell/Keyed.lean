namespace SessionShell

/-- Rows in strictly ascending order of `key`. -/
structure Keyed {ν κ : Type} [Ord κ] (key : ν → κ) where
  toList : List ν
  ascending : toList.Pairwise fun a b => compare (key a) (key b) = .lt

namespace Keyed

variable {ν κ : Type} [Ord κ] {key : ν → κ}

theorem ext {s t : Keyed key} (h : s.toList = t.toList) : s = t := by
  cases s; cases t; cases h; rfl

instance [DecidableEq ν] : DecidableEq (Keyed key) := fun s t =>
  if h : s.toList = t.toList then isTrue (ext h) else isFalse fun e => h (e ▸ rfl)

def empty : Keyed key := ⟨[], .nil⟩

instance : EmptyCollection (Keyed key) := ⟨empty⟩

instance : Inhabited (Keyed key) := ⟨empty⟩

def size (t : Keyed key) : Nat := t.toList.length

def isEmpty (t : Keyed key) : Bool := t.toList.isEmpty

def keys (t : Keyed key) : List κ := t.toList.map key

/-- Puts a row into its place in an ascending list, over a row with the same key. -/
def insertRow (key : ν → κ) (a : ν) : List ν → List ν
  | [] => [a]
  | b :: bs =>
    match compare (key a) (key b) with
    | .lt => a :: b :: bs
    | .eq => a :: bs
    | .gt => b :: insertRow key a bs

theorem mem_of_mem_insertRow {a c : ν} {l : List ν} (h : c ∈ insertRow key a l) : c = a ∨ c ∈ l := by
  induction l with
  | nil => simpa [insertRow] using h
  | cons b bs ih =>
    rw [insertRow] at h
    split at h <;> simp only [List.mem_cons] at h ⊢
    · exact h
    · exact h.imp id .inr
    · rcases h with h | h
      · exact .inr (.inl h)
      · exact (ih h).imp id .inr

theorem insertRow_ascending [Std.TransOrd κ] [Std.LawfulEqOrd κ] (a : ν) {l : List ν}
    (h : l.Pairwise fun a b => compare (key a) (key b) = .lt) :
    (insertRow key a l).Pairwise fun a b => compare (key a) (key b) = .lt := by
  induction l with
  | nil => simp [insertRow]
  | cons b bs ih =>
    have ⟨hb, hbs⟩ := List.pairwise_cons.1 h
    rw [insertRow]
    split
    · rename_i hlt
      refine List.pairwise_cons.2 ⟨fun c hc => ?_, h⟩
      rcases List.mem_cons.1 hc with rfl | hc
      · exact hlt
      · exact Std.TransCmp.lt_trans hlt (hb c hc)
    · rename_i heq
      have hkey := Std.LawfulEqCmp.eq_of_compare heq
      exact List.pairwise_cons.2 ⟨fun c hc => hkey ▸ hb c hc, hbs⟩
    · rename_i hgt
      refine List.pairwise_cons.2 ⟨fun c hc => ?_, ih hbs⟩
      rcases mem_of_mem_insertRow hc with rfl | hc
      · exact Std.OrientedCmp.lt_of_gt hgt
      · exact hb c hc

/-- Puts a row under its key, in place of the row that had it. -/
def insert [Std.TransOrd κ] [Std.LawfulEqOrd κ] (t : Keyed key) (a : ν) : Keyed key :=
  ⟨insertRow key a t.toList, insertRow_ascending a t.ascending⟩

variable [DecidableEq κ]

def find? (t : Keyed key) (k : κ) : Option ν := t.toList.find? fun a => key a = k

def contains (t : Keyed key) (k : κ) : Bool := t.toList.any fun a => key a = k

def erase (t : Keyed key) (k : κ) : Keyed key :=
  ⟨t.toList.filter fun a => key a ≠ k, t.ascending.filter _⟩

/-- Changes the row with key `k`; the change may not touch the key. -/
def modify (t : Keyed key) (k : κ) (f : ν → ν) (hf : ∀ a, key (f a) = key a) : Keyed key :=
  ⟨t.toList.map fun a => if key a = k then f a else a,
    List.pairwise_map.2 <| t.ascending.imp fun {a b} h => by
      have keep : ∀ c : ν, key (if key c = k then f c else c) = key c := fun c => by
        split
        · exact hf c
        · rfl
      rw [keep, keep]; exact h⟩

end Keyed
end SessionShell
