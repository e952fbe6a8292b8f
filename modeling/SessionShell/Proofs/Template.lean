import Mathlib.Control.Monad.Basic
import Mathlib.Logic.ExistsUnique
import SessionShell.Proofs.Loading

namespace SessionShell.Template

/-- A piece of a template: a place for all arguments or for one of the first nine, or a character
that stays. -/
inductive Token
  | all
  | argument (i : Fin 9)
  | plain (c : Char)
deriving DecidableEq, Repr

namespace Token

def source : Token → List Char
  | all => ['$', '@']
  | argument i => ['$', Nat.digitChar (i + 1)]
  | plain c => [c]

def text (arguments : List String) : Token → String
  | all => " ".intercalate arguments
  | argument i => arguments[i.val]?.getD ""
  | plain c => String.singleton c

def IsPlace : Token → Prop
  | plain _ => False
  | _ => True

end Token

/-- How a template is cut into tokens, from left to right: a place is taken wherever one begins. -/
inductive Tokenized : List Char → List Token → Prop
  | nil : Tokenized [] []
  | place {t : Token} {rest : List Char} {ts : List Token} (hplace : t.IsPlace) :
    Tokenized rest ts → Tokenized (t.source ++ rest) (t :: ts)
  | plain {c : Char} {rest : List Char} {ts : List Token}
    (hno : ∀ t : Token, t.IsPlace → ¬t.source <+: c :: rest) :
    Tokenized rest ts → Tokenized (c :: rest) (.plain c :: ts)

variable {template a b rest rest' : List Char} {ts us : List Token} {t u : Token} {c : Char}

theorem argumentIndex?_eq_some_iff {i : Nat} :
    argumentIndex? c = some i ↔ ∃ k : Fin 9, k.val = i ∧ c = Nat.digitChar (k + 1) := by
  constructor
  · intro h
    simp only [argumentIndex?, Bool.and_eq_true, decide_eq_true_eq, Option.ite_none_right_eq_some,
      Option.some_inj] at h
    obtain ⟨⟨hlow, hhigh⟩, rfl⟩ := h
    have hlow : 49 ≤ c.toNat := hlow
    have hhigh : c.toNat ≤ 57 := hhigh
    have hdigit : ∀ k : Fin 9, Char.ofNat (49 + k) = Nat.digitChar (k + 1) := by decide
    let k : Fin 9 := ⟨c.toNat - 49, by omega⟩
    refine ⟨k, rfl, ?_⟩
    calc c = Char.ofNat (49 + k) := by rw [Nat.add_sub_cancel' hlow, Char.ofNat_toNat]
      _ = Nat.digitChar (k + 1) := hdigit k
  · rintro ⟨k, rfl, rfl⟩
    decide +revert

theorem Token.IsPlace.source_eq (h : t.IsPlace) :
    ∃ c, t.source = ['$', c] ∧
      (c = '@' ∧ t = .all ∨ ∃ i, argumentIndex? c = some i.val ∧ t = .argument i) := by
  cases t with
  | all => exact ⟨'@', rfl, .inl ⟨rfl, rfl⟩⟩
  | argument i => exact ⟨_, rfl, .inr ⟨i, argumentIndex?_eq_some_iff.2 ⟨i, rfl, rfl⟩, rfl⟩⟩
  | plain c => exact h.elim

theorem Token.IsPlace.next (h : t.IsPlace) (hstart : t.source <+: c :: rest) :
    c = '$' ∧ ∃ d rest', rest = d :: rest' ∧ (d = '@' ∨ argumentIndex? d ≠ none) := by
  obtain ⟨d, hsource, hd⟩ := h.source_eq
  obtain ⟨rest', hrest⟩ := hstart
  rw [hsource] at hrest
  cases hrest
  refine ⟨rfl, d, rest', rfl, ?_⟩
  rcases hd with ⟨rfl, -⟩ | ⟨i, hi, -⟩
  · exact .inl rfl
  · exact .inr (by simp [hi])

theorem Token.IsPlace.unique (ht : t.IsPlace) (hu : u.IsPlace)
    (h : t.source ++ rest = u.source ++ rest') : t = u ∧ rest = rest' := by
  obtain ⟨c, hsource, hc⟩ := ht.source_eq
  obtain ⟨d, hsource', hd⟩ := hu.source_eq
  rw [hsource, hsource'] at h
  cases h
  refine ⟨?_, rfl⟩
  rcases hc with ⟨rfl, rfl⟩ | ⟨i, hi, rfl⟩ <;> rcases hd with ⟨hc, rfl⟩ | ⟨j, hj, rfl⟩
  · rfl
  · cases hj
  · subst hc
    cases hi
  · rw [Fin.ext (Option.some.inj (hi.symm.trans hj))]

theorem Tokenized.keep (h : c = '$' → ∀ d ∈ rest.head?, d ≠ '@' ∧ argumentIndex? d = none)
    (hrest : Tokenized rest ts) : Tokenized (c :: rest) (.plain c :: ts) := by
  refine .plain (fun t ht hstart => ?_) hrest
  obtain ⟨hc, d, rest', rfl, hd⟩ := ht.next hstart
  obtain ⟨hat, hnone⟩ := h hc d rfl
  exact hd.elim hat (· hnone)

theorem exists_tokenized (template : List Char) : ∃ ts, Tokenized template ts := by
  induction template using expand.induct with
  | case1 => exact ⟨_, .nil⟩
  | case2 rest ih =>
    obtain ⟨ts, hts⟩ := ih
    exact ⟨_, .place (t := .all) trivial hts⟩
  | case3 c rest _ i hi ih =>
    obtain ⟨ts, hts⟩ := ih
    obtain ⟨k, -, rfl⟩ := argumentIndex?_eq_some_iff.1 hi
    exact ⟨_, .place (t := .argument k) trivial hts⟩
  | case4 c rest hc hnone ih =>
    obtain ⟨ts, hts⟩ := ih
    refine ⟨_, .keep (fun _ d hd => ?_) hts⟩
    cases hd
    exact ⟨hc, hnone⟩
  | case5 c rest _ hc ih =>
    obtain ⟨ts, hts⟩ := ih
    refine ⟨_, .keep (fun hdollar d hd => ?_) hts⟩
    obtain ⟨rest', rfl⟩ := List.head?_eq_some_iff.1 hd
    exact (hc d rest' hdollar rfl).elim

theorem Tokenized.unique (h : Tokenized template ts) (h' : Tokenized template us) : ts = us := by
  induction h generalizing us with
  | nil =>
    generalize hs : ([] : List Char) = s at h'
    cases h' with
    | nil => rfl
    | place ht _ =>
      obtain ⟨c, hsource, -⟩ := ht.source_eq
      rw [hsource] at hs
      cases hs
    | plain => cases hs
  | @place t rest ts ht _ ih =>
    generalize hs : t.source ++ rest = s at h'
    cases h' with
    | nil =>
      obtain ⟨c, hsource, -⟩ := ht.source_eq
      rw [hsource] at hs
      cases hs
    | place hu hrest =>
      obtain ⟨rfl, rfl⟩ := ht.unique hu hs
      rw [ih hrest]
    -- a character stays as it is only where no place begins
    | plain hno => exact absurd ⟨rest, hs⟩ (hno t ht)
  | @plain c rest ts hno _ ih =>
    generalize hs : c :: rest = s at h'
    cases h' with
    | nil => cases hs
    | @place u rest' _ hu _ => exact absurd ⟨rest', hs.symm⟩ (hno u hu)
    | plain _ hrest =>
      cases hs
      rw [ih hrest]

theorem Tokenized.source_eq (h : Tokenized template ts) : ts.flatMap Token.source = template := by
  induction h with
  | nil => rfl
  | place _ _ ih => rw [List.flatMap_cons, ih]
  | plain _ _ ih => rw [List.flatMap_cons, ih]; rfl

theorem expand_place (arguments : List String) (h : t.IsPlace) (rest : List Char) :
    expand (arguments.map String.toList) (t.source ++ rest) =
      (t.text arguments).toList ++ expand (arguments.map String.toList) rest := by
  cases t with
  | all =>
    show [' '].intercalate (arguments.map String.toList) ++ _ = _
    rw [Token.text, String.toList_intercalate]
    rfl
  | argument i =>
    have hi : argumentIndex? (Nat.digitChar (i + 1)) = some i.val :=
      argumentIndex?_eq_some_iff.2 ⟨i, rfl, rfl⟩
    have hat : ∀ k : Fin 9, Nat.digitChar (k + 1) ≠ '@' := by decide
    show expand _ ('$' :: Nat.digitChar (i + 1) :: rest) = _
    rw [expand.eq_3 _ _ _ (hat i), hi]
    simp only [Token.text, List.getElem?_map]
    cases arguments[i.val]? <;> rfl
  | plain c => exact h.elim

theorem expand_plain (arguments : List (List Char))
    (h : ∀ t : Token, t.IsPlace → ¬t.source <+: c :: rest) :
    expand arguments (c :: rest) = c :: expand arguments rest := by
  generalize hs : c :: rest = s at h
  fun_cases expand arguments s with
  | case1 => cases hs
  | case2 rest => exact absurd ⟨rest, rfl⟩ (h .all trivial)
  | case3 d rest _ i hi =>
    obtain ⟨k, -, rfl⟩ := argumentIndex?_eq_some_iff.1 hi
    exact absurd ⟨rest, rfl⟩ (h (.argument k) trivial)
  | case4 => cases hs; rfl
  | case5 => cases hs; rfl

theorem Tokenized.expand (h : Tokenized template ts) (arguments : List String) :
    expand (arguments.map String.toList) template =
      ts.flatMap fun t => (t.text arguments).toList := by
  induction h with
  | nil => rfl
  | place hplace _ ih => rw [expand_place arguments hplace, ih, List.flatMap_cons]
  | plain hno _ ih =>
    rw [expand_plain _ hno, ih, List.flatMap_cons]
    simp [Token.text]

/-- No place begins at the last character of a template and ends in what is put behind it, unless
that character is a dollar sign. -/
theorem Tokenized.append (h : Tokenized a ts) (h' : Tokenized b us)
    (hlast : a.getLast? ≠ some '$') : Tokenized (a ++ b) (ts ++ us) := by
  induction h with
  | nil => exact h'
  | @place t rest ts hplace _ ih =>
    rw [List.append_assoc]
    refine .place hplace (ih fun hrest => hlast ?_)
    rw [List.getLast?_append, hrest]
    rfl
  | @plain c rest ts hno _ ih =>
    refine .plain (fun t ht hstart => ?_) (ih fun hrest => hlast ?_)
    · have hrest : rest ≠ [] := by
        rintro rfl
        exact hlast (congrArg some (ht.next hstart).1)
      obtain ⟨d, hsource, -⟩ := ht.source_eq
      have hpos : 0 < rest.length := List.length_pos_iff.2 hrest
      have hlength : t.source.length ≤ (c :: rest).length := by
        simp only [hsource, List.length_cons, List.length_nil]
        omega
      exact hno t ht (List.prefix_of_prefix_length_le hstart (List.prefix_append _ b) hlength)
    · rw [List.getLast?_cons, hrest]
      rfl

theorem expand_append (arguments : List String) (b : List Char) (hlast : a.getLast? ≠ some '$') :
    expand (arguments.map String.toList) (a ++ b) =
      expand (arguments.map String.toList) a ++ expand (arguments.map String.toList) b := by
  obtain ⟨ts, hts⟩ := exists_tokenized a
  obtain ⟨us, hus⟩ := exists_tokenized b
  rw [(hts.append hus hlast).expand, hts.expand, hus.expand, List.flatMap_append]

theorem expandText_of_tokenized {template : String} (h : Tokenized template.toList ts)
    (arguments : List String) :
    expandText template arguments = String.join (ts.map (Token.text arguments)) := by
  rw [expandText, h.expand, ← String.toList_inj]
  simp [List.flatMap, Function.comp_def]

theorem expandText_append (a b : String) (arguments : List String)
    (hlast : a.toList.getLast? ≠ some '$') :
    expandText (a ++ b) arguments = expandText a arguments ++ expandText b arguments := by
  rw [expandText, String.toList_append, expand_append _ _ hlast, String.ofList_append]
  rfl

/-- A module that a directory brings up writes the lines of its manifest, and cannot fail. -/
theorem run_of_load {files : Files} {d : ManifestDirectory} {name : String} {m : Module}
    (h : d.load files name = .ok m) :
    ∃ text manifest, files.readText (d.path name) = .ok text ∧
      Manifest.parse text = .ok manifest ∧ ∀ now a,
        m.run now a = ⟨manifest.lines.map fun line => expandText line a.positional, none⟩ := by
  unfold ManifestDirectory.load at h
  split at h
  · cases h
  · split at h
    · cases h
    · cases h
    · rename_i text hread
      split at h
      · rename_i manifest hparse
        cases h
        exact ⟨text, manifest, hread, hparse, fun _ _ => rfl⟩
      · cases h

/-- A template is cut into tokens in one way, whatever the arguments, and becomes the texts of its
tokens in their order; so what an argument says is not looked at. What stands in front of a template
has no say in it, unless it ends in a dollar sign. A module of a directory writes one such line for
each line of its manifest, in their order, and does not fail. -/
theorem expandText_eq_tokens :
    (∀ template : String, ∃! tokens, Tokenized template.toList tokens) ∧
    (∀ (template : String) tokens, Tokenized template.toList tokens →
      tokens.flatMap Token.source = template.toList ∧ ∀ arguments,
        expandText template arguments = String.join (tokens.map (Token.text arguments))) ∧
    (∀ (a b : String) arguments, a.toList.getLast? ≠ some '$' →
      expandText (a ++ b) arguments = expandText a arguments ++ expandText b arguments) ∧
    ∀ files (d : ManifestDirectory) name m, d.load files name = .ok m →
      ∃ text manifest, files.readText (d.path name) = .ok text ∧
        Manifest.parse text = .ok manifest ∧ ∀ now a,
          m.run now a = ⟨manifest.lines.map fun line => expandText line a.positional, none⟩ := by
  refine ⟨fun template => ?_, fun template tokens h => ⟨h.source_eq, expandText_of_tokenized h⟩,
    expandText_append, fun _ _ _ _ => run_of_load⟩
  obtain ⟨tokens, htokens⟩ := exists_tokenized template.toList
  exact ⟨tokens, htokens, fun _ h => h.unique htokens⟩

/-- Dollar signs before a place, before no place and at the end, and an argument that looks like a
place. -/
theorem expandText_of_odd_template :
    let document := "\x7b\"lines\":[\"$$1 $10$@$\",\"\",\"$3\"]\x7d"
    let files := Files.ofList [("m/say.json", .ok (Text.Utf8.encode document))] .notFound
    let arguments := ["$2", "b"]
    expandText "$$1 $10$@$" arguments = "$$2 $20$2 b$" ∧
      expandText ("$$1 $10$@" ++ "$") arguments =
        expandText "$$1 $10$@" arguments ++ expandText "$" arguments ∧
      ∃ m, ManifestDirectory.load files ⟨"m"⟩ "say" = .ok m ∧
        m.run default ⟨arguments, ∅⟩ = ⟨["$$2 $20$2 b$", "", ""], none⟩ := by
  intro document files arguments
  obtain ⟨-, htokens, happend, hmodule⟩ := expandText_eq_tokens
  have hrest : Tokenized "0$@$".toList [.plain '0', .all, .plain '$'] :=
    .keep (by decide) <| .place (t := .all) trivial <| .keep (by simp) .nil
  have hnext : ∀ d ∈ "$1 $10$@$".toList.head?, d ≠ '@' ∧ argumentIndex? d = none := by
    rintro d ⟨⟩
    decide
  have hcut : Tokenized "$$1 $10$@$".toList
      [.plain '$', .argument 0, .plain ' ', .argument 0, .plain '0', .all, .plain '$'] :=
    .keep (fun _ => hnext) <| .place (t := .argument 0) trivial <| .keep (by decide) <|
      .place (t := .argument 0) trivial hrest
  have hline : expandText "$$1 $10$@$" arguments = "$$2 $20$2 b$" := by
    rw [(htokens _ _ hcut).2]
    decide
  let manifest : Manifest := ⟨"", ["$$1 $10$@$", "", "$3"]⟩
  have hread : files.readText (ManifestDirectory.path ⟨"m"⟩ "say") = .ok document := by
    decide +kernel
  have hparse : Manifest.parse document = .ok manifest := by decide +kernel
  have hload : ManifestDirectory.load files ⟨"m"⟩ "say" = .ok manifest.toModule := by
    rw [ManifestDirectory.load_of_plain (ManifestDirectory.isPlain_iff.1 (by decide)), hread]
    dsimp only
    rw [hparse]
  obtain ⟨text, manifest', hread', hparse', hrun⟩ := hmodule _ _ _ _ hload
  cases hread.symm.trans hread'
  cases hparse.symm.trans hparse'
  refine ⟨hline, happend _ _ arguments (by decide), _, hload, ?_⟩
  rw [hrun]
  show (⟨[expandText "$$1 $10$@$" arguments, _, _], none⟩ : ModuleOutput) = _
  rw [hline]
  decide

end SessionShell.Template
