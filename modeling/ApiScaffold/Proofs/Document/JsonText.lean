import ApiScaffold.Document.Source
import ApiScaffold.Proofs.Json.Read
import ApiScaffold.Proofs.Json.Scalars
import ApiScaffold.Proofs.Json.Scanned
import ApiScaffold.Proofs.Yaml.Trees

namespace ApiScaffold

namespace Yaml.Flow

variable {t : Truths} {text : Text} {plain : Bool} {v : Tree}

theorem readable_scalar (h : Scalar.value (tag t text plain) text = .ok v) :
    (scalar text plain).readable t = true ∧ (scalar text plain).tree t = v := by
  rw [readable, tree, leaf, h]
  exact ⟨rfl, rfl⟩

end Yaml.Flow

namespace Json
open Yaml

/-- What numbers and strings stand for in YAML. -/
def Sense.yaml : Sense :=
  ⟨Number.read, Glyph.points⟩

/-- Where YAML takes numbers and strings for what they are: numbers that are integers or have a
point, and a sign in their exponent, and strings without pairs of escapes. -/
def Check.plain : Check where
  gap _ := true
  number n := n.isInteger || n.isPointed
  string := Glyph.areApart
  key _ := true

theorem Sense.agree_plain : Sense.Agree Check.plain .yaml .plain where
  number n h := by
    simp only [Check.plain, Bool.or_eq_true] at h
    simp only [Sense.yaml, Sense.plain, Number.read, Number.value]
    rcases h with h | h
    · simp [h]
    · simp [h]
  string _ h := (Glyph.text_eq_points h).symm

section
variable (t : Truths)

mutual

/-- What is scanned of a value has a value in each scalar, and the tree of the value. -/
theorem Value.read_flow : ∀ v : Value, v.passes Check.yaml = true →
    v.flow.readable t = true ∧ v.flow.tree t = v.tree .yaml
  | .word w, _ => Flow.readable_scalar (w.value_chars t)
  | .number n, h => Flow.readable_scalar (n.value_chars t fun hint => by
      simpa [Value.passes, Check.yaml, hint] using h)
  | .string _, _ => Flow.readable_scalar rfl
  | .emptyArray _, _ => ⟨rfl, rfl⟩
  | .array items, h => by
    obtain ⟨hreadable, htrees⟩ := items.read_flows h
    exact ⟨hreadable, congrArg Tree.list htrees⟩
  | .emptyObject _, _ => ⟨rfl, rfl⟩
  | .object members, h => by
    obtain ⟨hreadable, hentries⟩ := members.read_flows h
    exact ⟨hreadable, congrArg Tree.ofEntries hentries⟩

theorem Items.read_flows : ∀ items : Items, items.passes Check.yaml = true →
    Flow.itemsReadable t items.flows = true ∧ Flow.itemsTrees t items.flows = items.trees .yaml
  | .last _ item _, h => by
    simp only [Items.passes, Bool.and_eq_true] at h
    obtain ⟨hreadable, htree⟩ := item.read_flow h.1.2
    simp [Items.flows, Flow.itemsReadable, Flow.itemsTrees, Items.trees, hreadable, htree]
  | .next _ item _ more, h => by
    simp only [Items.passes, Bool.and_eq_true] at h
    obtain ⟨hreadable, htree⟩ := item.read_flow h.1.1.2
    obtain ⟨hmore, htrees⟩ := more.read_flows h.2
    simp [Items.flows, Flow.itemsReadable, Flow.itemsTrees, Items.trees, hreadable, htree, hmore,
      htrees]

theorem Members.read_flows : ∀ members : Members, members.passes Check.yaml = true →
    Flow.membersReadable t members.flows = true ∧
      Flow.membersEntries t members.flows = members.entries .yaml
  | .last key value _, h => by
    simp only [Members.passes, Bool.and_eq_true] at h
    obtain ⟨hreadable, htree⟩ := value.read_flow h.1.2
    simp [Members.flows, Flow.membersReadable, Flow.membersEntries, Members.entries, hreadable,
      htree, Sense.yaml]
  | .next key value _ more, h => by
    simp only [Members.passes, Bool.and_eq_true] at h
    obtain ⟨hreadable, htree⟩ := value.read_flow h.1.1.2
    obtain ⟨hmore, hentries⟩ := more.read_flows h.2
    simp [Members.flows, Flow.membersReadable, Flow.membersEntries, Members.entries, hreadable,
      htree, hmore, hentries, Sense.yaml]

end

end

end Json

namespace Document
open Json

theorem load_written (w : Written) (h : w.passes Check.yaml = true) :
    load (Text.ofChars w.chars) = .ok (w.tree .yaml) := by
  have hvalue : w.value.passes Check.yaml = true := by
    simp only [Written.passes, Bool.and_eq_true] at h
    exact h.1.2
  obtain ⟨hreadable, htree⟩ := w.value.read_flow .plain hvalue
  rw [load, Yaml.load_flow (w.tokens_eq h) hreadable, htree]
  rfl

/-- A text of JSON denotes what is read of it, and is loaded with the tree of its YAML sense. The
two are one where the senses agree. -/
theorem load_json (w : Written) (h : w.passes Check.yaml = true) :
    read? (String.ofList w.chars) = some (w.tree .plain) ∧
      load (Text.ofChars w.chars) = .ok (w.tree .yaml) ∧
      (w.passes Check.plain = true → load (Text.ofChars w.chars) = .ok (w.tree .plain)) := by
  refine ⟨w.read?_chars, load_written w h, fun hplain => ?_⟩
  simp only [Written.passes, Bool.and_eq_true] at hplain
  rw [load_written w h, Written.tree, w.value.tree_congr Sense.agree_plain hplain.1.2]
  rfl

/-- A description with a break and an escape, whose numbers are `-0` and `2.5E+3`. -/
def sample : Written where
  before := ⟨[], by simp⟩
  value := .object (.last
    { before := ⟨['\n'], by simp [isSpace]⟩, glyphs := [.raw 'a' rfl, .escape 'n' '\n' rfl],
      behind := ⟨[' '], by simp [isSpace]⟩, between := ⟨[], by simp⟩ }
    (.array (.next ⟨[], by simp⟩
      (.number { negative := true, whole := ['0'], fraction := [], exponent := none,
                 isWhole := rfl, areDigits := by simp })
      ⟨[], by simp⟩
      (.last ⟨[' '], by simp [isSpace]⟩
        (.number { negative := false, whole := ['2'], fraction := ['5'],
                   exponent := some ⟨true, some false, ['3'], by simp, by simp⟩,
                   isWhole := rfl, areDigits := by simp })
        ⟨[], by simp⟩)))
    ⟨['\r', '\n'], by simp [isSpace]⟩)
  after := ⟨[], by simp⟩

theorem load_json_sample :
    sample.passes Check.yaml = true ∧ sample.passes Check.plain = true ∧
      load (Text.ofChars "\x7b\n\"a\\n\" :[-0, 2.5E+3]\r\n\x7d".toList) =
        .ok (sample.tree .plain) :=
  ⟨by decide, by decide, (load_json sample (by decide)).2.2 (by decide)⟩

/-- The text `[1e5]`. -/
def exponentText : Written where
  before := ⟨[], by simp⟩
  value := .array (.last ⟨[], by simp⟩
    (.number { negative := false, whole := ['1'], fraction := [],
               exponent := some ⟨false, none, ['5'], by simp, by simp⟩,
               isWhole := rfl, areDigits := by simp })
    ⟨[], by simp⟩)
  after := ⟨[], by simp⟩

theorem load_ne_denoted : exponentText.chars = "[1e5]".toList ∧
    load (Text.ofChars exponentText.chars) = .ok (.list [.str "1e5"]) ∧
    ¬ ∀ w : Written, load (Text.ofChars w.chars) = .ok (w.tree .plain) := by
  have hload : load (Text.ofChars exponentText.chars) = .ok (.list [.str "1e5"]) :=
    load_written exponentText (by decide)
  refine ⟨by decide, hload, fun h => ?_⟩
  rw [h exponentText] at hload
  cases hload

end Document
end ApiScaffold
