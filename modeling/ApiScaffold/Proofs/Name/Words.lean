import ApiScaffold.Document.Operation
import ApiScaffold.Proofs.Name.Stages
import ApiScaffold.Proofs.Text.Lower
import ApiScaffold.Proofs.Text.Pieces

namespace ApiScaffold
open Text

namespace Name
variable {a b t : Text} {c : Char} {p : CodePoint} {ls : List Text}

section Words

/-- What stands around a separator is put in capitals on its own. -/
theorem joinWords_append_separator (hp : p.is Char.isAlphanum = false) (opens : Bool) (a b : Text) :
    joinWords opens (a ++ p :: b) = joinWords opens a ++ joinWords true b := by
  induction a generalizing opens with
  | nil =>
    cases p with
    | surrogate n => rfl
    | char c =>
      have hc : c.isAlphanum = false := hp
      simp [joinWords, hc]
  | cons q rest ih =>
    rw [List.cons_append]
    cases q with
    | surrogate n => exact ih true
    | char d =>
      by_cases hd : d.isAlphanum
      · simp [joinWords, hd, ih]
      · simp [joinWords, hd, ih]

theorem pascal_append_separator (hp : p.is Char.isAlphanum = false) (a b : Text) :
    pascal (a ++ p :: b) = pascal a ++ pascal b := by
  rw [pascal, joinWords_append_separator hp]
  exact List.map_append

theorem pascal_intercalate (hp : p.is Char.isAlphanum = false) (ls : List Text) :
    pascal ([p].intercalate ls) = ls.flatMap pascal := by
  induction ls with
  | nil => rfl
  | cons l ls ih =>
    cases ls with
    | nil => simp
    | cons m ls =>
      rw [List.intercalate_cons_cons, List.append_assoc, List.singleton_append,
        pascal_append_separator hp, ih]
      rfl

/-- The words of a text: its runs of ASCII letters and digits. -/
def words (t : Text) : List Text :=
  (t.splitOnP fun p => !p.is Char.isAlphanum).filter fun word => !word.isEmpty

theorem isPart_of_isAlphanum (h : c.isAlphanum = true) : Identifier.isPart c = true := by
  simp [Identifier.isPart, h]

theorem upperForm_of_isAlphanum (h : c.isAlphanum = true) : upperForm c = [c.toUpper] :=
  ascii_forall (P := fun c => upperForm c = [c.toUpper]) (by decide +kernel)
    (isAscii_of_isPart (isPart_of_isAlphanum h))

theorem flatMap_capitalize_filter (ls : List Text) :
    (ls.filter fun word => !word.isEmpty).flatMap capitalize = ls.flatMap capitalize := by
  induction ls with
  | nil => rfl
  | cons l ls ih =>
    cases l with
    | nil => exact ih
    | cons p l => simp [ih]

/-- Every word after the first begins with a letter in upper case; the first does if it is not the
rest of one. -/
theorem joinWords_eq_flatMap {first : Text} {more : List Text}
    (h : (t.splitOnP fun p => !p.is Char.isAlphanum) = first :: more) (opens : Bool) :
    ofChars (joinWords opens t) =
      (if opens then capitalize first else first) ++ more.flatMap capitalize := by
  induction t generalizing first more opens with
  | nil =>
    obtain ⟨rfl, rfl⟩ := List.cons.inj h
    cases opens <;> rfl
  | cons p rest ih =>
    obtain ⟨next, others, hrest⟩ := List.exists_cons_of_ne_nil
      (List.splitOnP_ne_nil (fun p : CodePoint => !p.is Char.isAlphanum) rest)
    rw [List.splitOnP_cons_eq_if_modifyHead, hrest] at h
    cases hp : p.is Char.isAlphanum with
    | false =>
      simp only [hp, Bool.not_false, if_true] at h
      obtain ⟨rfl, rfl⟩ := List.cons.inj h
      have hjoined := joinWords_append_separator hp opens [] rest
      rw [List.nil_append] at hjoined
      rw [hjoined]
      have hnone : joinWords opens [] = [] := rfl
      rw [hnone, List.nil_append, ih hrest true, List.flatMap_cons]
      cases opens <;> rfl
    | true =>
      simp only [hp, Bool.not_true, Bool.false_eq_true, if_false, List.modifyHead_cons] at h
      obtain ⟨rfl, rfl⟩ := List.cons.inj h
      cases p with
      | surrogate n => cases hp
      | char c =>
        have hc : c.isAlphanum = true := hp
        have hletters := ih hrest false
        cases opens with
        | true =>
          simp [joinWords, hc, capitalize, upperForm_of_isAlphanum hc, ofChars] at hletters ⊢
          exact hletters
        | false =>
          simp [joinWords, hc, ofChars] at hletters ⊢
          exact hletters

/-- The name in this form is made of the words of the text, each with its first letter put in upper
case. -/
theorem pascal_eq_flatMap_words (t : Text) : pascal t = (words t).flatMap capitalize := by
  obtain ⟨first, more, h⟩ := List.exists_cons_of_ne_nil
    (List.splitOnP_ne_nil (fun p : CodePoint => !p.is Char.isAlphanum) t)
  rw [words, flatMap_capitalize_filter, h, List.flatMap_cons]
  exact joinWords_eq_flatMap h true

/-- A text without separators is one word. -/
theorem pascal_of_over (h : Over Char.isAlphanum t) : pascal t = capitalize t := by
  have hsplit : (t.splitOnP fun p => !p.is Char.isAlphanum) = [t] := by
    apply List.splitOnP_eq_singleton
    intro p hp
    rw [h p hp, Bool.not_true]
  rw [pascal_eq_flatMap_words, words, flatMap_capitalize_filter, hsplit]
  simp

theorem toUpper_toUpper (h : c.isAlphanum = true) : c.toUpper.toUpper = c.toUpper :=
  ascii_forall (P := fun c => c.toUpper.toUpper = c.toUpper) (by decide +kernel)
    (isAscii_of_isPart (isPart_of_isAlphanum h))

/-- A name in this form keeps it. -/
theorem pascal_pascal (t : Text) : pascal (pascal t) = pascal t := by
  have hover := over_pascal t
  have hhead := head?_pascal t
  rw [pascal_of_over hover]
  cases hname : pascal t with
  | nil => rfl
  | cons p rest =>
    rw [hname] at hover hhead
    obtain ⟨q, hq, hp⟩ := Option.map_eq_some_iff.mp hhead.symm
    have hletter : q.is Char.isAlphanum = true := List.find?_some hq
    cases q with
    | surrogate n => cases hletter
    | char c =>
      obtain rfl := hp
      have hfirst : c.toUpper.isAlphanum = true := hover _ List.mem_cons_self
      simp [CodePoint.map, capitalize, upperForm_of_isAlphanum hfirst, toUpper_toUpper hletter,
        ofChars]

end Words
end Name

namespace Document
open Name

section FunctionNames

theorem flatMap_pascal_pieces (path : Text) :
    (pieces (.char '/') path).flatMap pascal = pascal path := by
  rw [← pascal_intercalate (p := .char '/') rfl, pieces_eq_splitOn, List.intercalate_splitOn]

theorem functionName_eq (method path : Text) :
    functionName method path = lower method ++ pascal path := by
  rw [functionName, flatMap_pascal_pieces]

theorem isName_lower_name (m : Method) : Identifier.IsName (lower m.name) := by
  cases m <;> decide

theorem over_functionName (m : Method) (path : Text) :
    Over Char.isAlphanum (functionName m.name path) := by
  rw [functionName_eq]
  have hmethod : Over Char.isAlphanum (lower m.name) := by
    cases m <;> decide
  exact hmethod.append (over_pascal path)

theorem isName_functionName (m : Method) (path : Text) :
    Identifier.IsName (functionName m.name path) := by
  rw [functionName_eq]
  apply (isName_lower_name m).append
  exact (over_pascal path).mono fun c hc => isPart_of_isAlphanum hc

/-- A name in capitals is made of ASCII letters and digits, from both sides of each separator on
its own, and keeps its form. So the name of a function without one is the method in lower case with
its whole path behind it; it is an identifier as it stands, and the hook is named by it with its
first letter in upper case. -/
theorem functionName_pascal :
    (∀ (a b : Text) (p : CodePoint), p.is Char.isAlphanum = false →
      pascal (a ++ p :: b) = pascal a ++ pascal b) ∧
    (∀ t, pascal (pascal t) = pascal t ∧ Over Char.isAlphanum (pascal t)) ∧
    ∀ (m : Method) (path : Text),
      functionName m.name path = lower m.name ++ pascal path ∧
      Identifier.ofFunction (functionName m.name path) = functionName m.name path ∧
      hook (functionName m.name path) = "use" ++ capitalize (functionName m.name path) := by
  refine ⟨fun a b p hp => pascal_append_separator hp a b,
    fun t => ⟨pascal_pascal t, over_pascal t⟩, ?_⟩
  intro m path
  refine ⟨functionName_eq m.name path, Identifier.clean_of_isName (isName_functionName m path), ?_⟩
  rw [hook, pascal_of_over (over_functionName m path)]

/-- A letter of another script parts two words, as a slash and a brace do. -/
theorem functionName_pascal_cafe :
    CodePoint.is Char.isAlphanum (.char '\u00e9') = false ∧
      pascal "caf\u00e9s" = pascal "caf" ++ pascal "s" ∧
      functionName Method.get.name "/caf\u00e9s/\x7b1id\x7d" = "getCafS1id" := by
  have hseparator : CodePoint.is Char.isAlphanum (.char '\u00e9') = false := by decide
  obtain ⟨hjoined, -, hnamed⟩ := functionName_pascal
  refine ⟨hseparator, hjoined "caf" "s" (.char '\u00e9') hseparator, ?_⟩
  rw [(hnamed .get "/caf\u00e9s/\x7b1id\x7d").1]
  decide +kernel

end FunctionNames
end Document
end ApiScaffold
