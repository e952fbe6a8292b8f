import Mathlib.Data.List.Pairwise
import SessionShell.Keyed

namespace SessionShell.Keyed

variable {ν κ : Type} [Ord κ] {key : ν → κ}

theorem key_ne_of_lt [Std.TransOrd κ] {a b : ν} (h : compare (key a) (key b) = .lt) :
    key a ≠ key b := by
  intro e
  rw [e, Std.ReflOrd.compare_self] at h
  cases h

theorem nodup_toList [Std.TransOrd κ] (t : Keyed key) : t.toList.Nodup :=
  t.ascending.imp fun h e => key_ne_of_lt h (congrArg key e)

variable [DecidableEq κ]

theorem key_of_find? {t : Keyed key} {k : κ} {a : ν} (h : t.find? k = some a) : key a = k := by
  simpa using List.find?_some h

theorem mem_of_find? {t : Keyed key} {k : κ} {a : ν} (h : t.find? k = some a) : a ∈ t.toList :=
  List.mem_of_find?_eq_some h

theorem ne_of_missing {t : Keyed key} {k k' : κ} {a : ν} (h : t.find? k = none)
    (h' : t.find? k' = some a) : k ≠ k' := by
  rintro rfl
  rw [h] at h'
  cases h'

theorem contains_eq (t : Keyed key) (k : κ) : t.contains k = (t.find? k).isSome := by
  rw [Bool.eq_iff_iff, find?, List.find?_isSome, contains, List.any_eq_true]

theorem find?_erase (t : Keyed key) (k k' : κ) :
    (t.erase k).find? k' = if k = k' then none else t.find? k' := by
  simp only [find?, erase, List.find?_filter]
  split
  · rename_i h
    subst h
    simp
  · rename_i h
    congr 1
    funext a
    by_cases ha : key a = k'
    · simp [ha, Ne.symm h]
    · simp [ha]

theorem find?_modify (t : Keyed key) (k k' : κ) (f : ν → ν) (hf : ∀ a, key (f a) = key a) :
    (t.modify k f hf).find? k' = if k = k' then (t.find? k').map f else t.find? k' := by
  have hkey : ∀ a, key (if key a = k then f a else a) = key a := by
    intro a
    split
    · exact hf a
    · rfl
  simp only [find?, modify, List.find?_map, Function.comp_def, hkey]
  cases h : t.toList.find? fun a => decide (key a = k') with
  | none => simp
  | some a =>
    have ha : key a = k' := by simpa using List.find?_some h
    by_cases hk : k = k'
    · simp [ha, hk]
    · simp [ha, hk, Ne.symm hk]

theorem find?_of_mem [Std.TransOrd κ] {t : Keyed key} {a : ν} (h : a ∈ t.toList) :
    t.find? (key a) = some a := by
  obtain ⟨b, hb⟩ : ∃ b, t.find? (key a) = some b :=
    Option.isSome_iff_exists.1 (List.find?_isSome.2 ⟨a, h, by simp⟩)
  have hkey := key_of_find? hb
  have hpair : t.toList.Pairwise fun a b => key a ≠ key b := t.ascending.imp key_ne_of_lt
  have : Std.Symm fun a b : ν => key a ≠ key b := ⟨fun _ _ => Ne.symm⟩
  rw [hb, Option.some_inj]
  -- two rows under one key would not be in ascending order
  by_contra hne
  exact hpair.forall (mem_of_find? hb) h hne hkey

theorem mem_toList_iff [Std.TransOrd κ] {t : Keyed key} {a : ν} :
    a ∈ t.toList ↔ t.find? (key a) = some a :=
  ⟨find?_of_mem, mem_of_find?⟩

theorem ext_find? [Std.TransOrd κ] {s t : Keyed key} (h : ∀ k, s.find? k = t.find? k) : s = t := by
  apply ext
  have hperm : s.toList.Perm t.toList :=
    (List.perm_ext_iff_of_nodup s.nodup_toList t.nodup_toList).2 fun a => by
      rw [mem_toList_iff, mem_toList_iff, h]
  refine hperm.eq_of_pairwise (fun a b _ _ hab hba => ?_) s.ascending t.ascending
  exact absurd (Std.OrientedCmp.gt_of_lt hab) (by rw [hba]; decide)

variable [Std.TransOrd κ] [Std.LawfulEqOrd κ]

theorem find?_insertRow (a : ν) (k : κ) (l : List ν) :
    (insertRow key a l).find? (fun b => key b = k) =
      if key a = k then some a else l.find? (fun b => key b = k) := by
  induction l with
  | nil => by_cases h : key a = k <;> simp [insertRow, h]
  | cons b bs ih =>
    rw [insertRow]
    split
    · by_cases h : key a = k <;> simp [h]
    · rename_i hab
      have hab : key a = key b := Std.LawfulEqCmp.eq_of_compare hab
      by_cases h : key a = k
      · simp [h]
      · simp [h, ← hab]
    · rename_i hab
      have hne : key a ≠ key b := (key_ne_of_lt (Std.OrientedCmp.lt_of_gt hab)).symm
      by_cases hb : key b = k
      · simp [hb, show key a ≠ k from hb ▸ hne]
      · simp [hb, ih]

theorem find?_insert (t : Keyed key) (a : ν) (k : κ) :
    (t.insert a).find? k = if key a = k then some a else t.find? k :=
  find?_insertRow a k t.toList

theorem erase_insert {t : Keyed key} {a : ν} (h : t.find? (key a) = none) :
    (t.insert a).erase (key a) = t := by
  apply ext_find?
  intro k
  rw [find?_erase, find?_insert]
  by_cases hk : key a = k
  · rw [if_pos hk, ← hk, h]
  · rw [if_neg hk, if_neg hk]

theorem insert_erase {t : Keyed key} {a : ν} (h : t.find? (key a) = some a) :
    (t.erase (key a)).insert a = t := by
  apply ext_find?
  intro k
  rw [find?_insert, find?_erase]
  by_cases hk : key a = k
  · rw [if_pos hk, ← hk, h]
  · rw [if_neg hk, if_neg hk]

end SessionShell.Keyed
