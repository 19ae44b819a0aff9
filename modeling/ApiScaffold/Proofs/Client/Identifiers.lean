import ApiScaffold.Client.Literal
import ApiScaffold.Proofs.Client.Bindings
import ApiScaffold.Proofs.Name.Cleaned

namespace ApiScaffold.Client
open Text
variable {name rest : Text}

theorem not_mem_literal {c : Char} {s : Text} (hquote : c ≠ '\'')
    (h : ∀ d, .char d ∈ s → c ∉ escapeChar d) : .char c ∉ literal s := by
  have hbody : .char c ∉ flatMapChars escapeChar s := by
    intro hm
    obtain ⟨p, hp, hc⟩ := List.mem_flatMap.mp hm
    cases p with
    | surrogate n => simp at hc
    | char d =>
      obtain ⟨e, he, hec⟩ := List.mem_map.mp hc
      cases hec
      exact h d hp he
  rw [literal]
  simp [hbody, hquote, ofString, ofChars]

/-- A name that may be declared: letters, digits, underscores and dollar signs, and no digit in
front. -/
structure IsIdentifier (t : Text) : Prop where
  word : IsWord t
  opens : ∀ p ∈ t.head?, p.is Char.isDigit = false

instance (t : Text) : Decidable (IsIdentifier t) :=
  decidable_of_iff ((t ≠ [] ∧ Over isNamePart t) ∧ ∀ p ∈ t.head?, p.is Char.isDigit = false)
    ⟨fun h => ⟨h.1, h.2⟩, fun h => ⟨h.word, h.opens⟩⟩

theorem isNameStart_iff (c : Char) :
    isNameStart c = true ↔ isNamePart c = true ∧ c.isDigit = false := by
  have hstart (h : isNameStart c = true) : c.isDigit = false := by
    rcases Bool.or_eq_true_iff.mp h with h | h
    · exact Identifier.isDigit_of_isStart h
    · obtain rfl := beq_iff_eq.mp h
      decide
  constructor
  · intro h
    refine ⟨?_, hstart h⟩
    simp only [isNameStart, isNamePart, Char.isAlphanum, Bool.or_eq_true] at h ⊢
    exact h.imp_left (.imp_left .inl)
  · rintro ⟨hpart, hdigit⟩
    simpa [isNameStart, isNamePart, Char.isAlphanum, hdigit] using hpart

theorem isIdentifier_cons {p : CodePoint} :
    IsIdentifier (p :: rest) ↔ p.is isNameStart = true ∧ Over isNamePart rest := by
  have hp : p.is isNameStart = true ↔ p.is isNamePart = true ∧ p.is Char.isDigit = false := by
    cases p with
    | char c => exact isNameStart_iff c
    | surrogate n => simp [CodePoint.is]
  have hover : Over isNamePart (p :: rest) ↔ p.is isNamePart = true ∧ Over isNamePart rest :=
    List.forall_mem_cons
  constructor
  · rintro ⟨⟨-, hword⟩, hopens⟩
    exact ⟨hp.mpr ⟨(hover.mp hword).1, hopens p rfl⟩, (hover.mp hword).2⟩
  · rintro ⟨hstart, hrest⟩
    refine ⟨⟨List.cons_ne_nil _ _, hover.mpr ⟨(hp.mp hstart).1, hrest⟩⟩, ?_⟩
    intro q hq
    obtain rfl := Option.some.inj hq
    exact (hp.mp hstart).2

/-- What is taken for a name is an identifier, and a line feed may stand behind it. -/
theorem isName_iff :
    isName name = true ↔
      IsIdentifier name ∨ ∃ word, IsIdentifier word ∧ name = word ++ [.char '\n'] := by
  have hopens (t : Text) : IsIdentifier t ↔ Identifier.OpensOver isNameStart isNamePart t := by
    cases t with
    | nil => exact iff_of_false (fun h => h.word.1 rfl) id
    | cons p rest => exact isIdentifier_cons
  simp only [hopens, isName, Identifier.isWord_iff]

end ApiScaffold.Client
