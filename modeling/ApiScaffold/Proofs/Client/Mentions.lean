import ApiScaffold.Proofs.Client.Reading

namespace ApiScaffold.Client
open Text

/-- Something that code says: that it reads a member of the parameters, that it declares a constant,
or that it declares a function, and what stands first where its arguments do. -/
inductive Mention where
  | access (name : Text)
  | constant (name : Text)
  | function (name : Text) (first : Lexeme)
  deriving DecidableEq

section Openings

def access? : List Lexeme → Option Mention
  | .sign (.char '.') :: .word name :: _ => some (.access name)
  | .sign (.char '[') :: .quoted name :: _ => some (.access name)
  | _ => none

def constant? : List Lexeme → Option Mention
  | .word name :: _ => some (.constant name)
  | _ => none

def function? : List Lexeme → Option Mention
  | .word name :: .sign (.char '(') :: first :: _ => some (.function name first)
  | _ => none

/-- What a lexeme opens in front of others. -/
def mention? (x : Lexeme) (xs : List Lexeme) : Option Mention :=
  if x = .word "params" then access? xs
  else if x = .word "const" then constant? xs
  else if x = .word "function" then function? xs
  else none

end Openings

/-- All that code says, in its order. -/
def mentions : List Lexeme → List Mention
  | [] => []
  | x :: xs => (mention? x xs).toList ++ mentions xs

/-- What the lexemes say, whatever follows them. -/
def Yields (xs : List Lexeme) (ms : List Mention) : Prop :=
  ∀ ys, mentions (xs ++ ys) = ms ++ mentions ys

/-- What the lexemes say where a sign that reads no member follows them. -/
def Settles (xs : List Lexeme) (ms : List Mention) : Prop :=
  ∀ c ∉ ['.', '['], Yields (xs ++ [.sign (.char c)]) ms

def keywords : List Text :=
  ["params", "const", "function"].map ofString

/-- No word of the code opens anything. -/
def Silent (xs : List Lexeme) : Prop :=
  ∀ w ∈ keywords, .word w ∉ xs

instance (xs : List Lexeme) : Decidable (Silent xs) :=
  inferInstanceAs (Decidable (∀ w ∈ keywords, .word w ∉ xs))

section Saying
variable {x : Lexeme} {xs ys : List Lexeme} {ms ns : List Mention} {w name : Text} {c : Char}

theorem mention?_eq_none (h : Silent [x]) (xs : List Lexeme) : mention? x xs = none := by
  simp only [Silent, keywords, List.map_cons, List.map_nil, List.forall_mem_cons,
    List.mem_singleton] at h
  simp [mention?, Ne.symm h.1, Ne.symm h.2.1, Ne.symm (h.2.2 _ rfl)]

theorem Yields.mentions_eq (h : Yields xs ms) : mentions xs = ms := by
  have hxs := h []
  rwa [List.append_nil, mentions, List.append_nil] at hxs

theorem yields_nil : Yields [] [] :=
  fun _ => rfl

theorem Yields.append (hx : Yields xs ms) (hy : Yields ys ns) : Yields (xs ++ ys) (ms ++ ns) := by
  intro zs
  rw [List.append_assoc, hx, hy, List.append_assoc]

theorem Yields.cons {m : Option Mention} (h : ∀ ys, mention? x (xs ++ ys) = m)
    (hxs : Yields xs ms) : Yields (x :: xs) (m.toList ++ ms) := by
  intro ys
  rw [List.cons_append, mentions, h, hxs, List.append_assoc]

theorem silent_cons : Silent (x :: xs) ↔ Silent [x] ∧ Silent xs := by
  simp only [Silent, List.mem_cons, List.not_mem_nil, or_false, not_or, forall_and]

theorem Silent.append (hx : Silent xs) (hy : Silent ys) : Silent (xs ++ ys) :=
  fun w hw hm => (List.mem_append.mp hm).elim (hx w hw) (hy w hw)

theorem Silent.yields (h : Silent xs) : Yields xs [] := by
  induction xs with
  | nil => exact yields_nil
  | cons x xs ih =>
    obtain ⟨hx, hxs⟩ := silent_cons.mp h
    exact .cons (fun _ => mention?_eq_none hx _) (ih hxs)

theorem silent_sign (p : CodePoint) : Silent [.sign p] := by
  simp [Silent]

theorem silent_quoted (s : Text) : Silent [.quoted s] := by
  simp [Silent]

/-- In front of a sign that reads no member nothing is opened. -/
theorem mention?_sign (hc : c ∉ ['.', '[']) (x : Lexeme) (xs : List Lexeme) :
    mention? x (.sign (.char c) :: xs) = none := by
  simp only [List.mem_cons, List.not_mem_nil, or_false, not_or] at hc
  have haccess : access? (.sign (.char c) :: xs) = none := by
    unfold access?
    split <;> simp_all
  simp [mention?, haccess, constant?, function?]

theorem Yields.cons_sign (hc : c ∉ ['.', '[']) (h : Yields (.sign (.char c) :: xs) ms) :
    Yields (x :: .sign (.char c) :: xs) ms :=
  .cons (fun _ => mention?_sign hc x _) h

theorem settles_singleton (x : Lexeme) : Settles [x] [] :=
  fun _ hc => .cons_sign hc (silent_sign _).yields

theorem Silent.settles (h : Silent xs) : Settles xs [] :=
  fun _ _ => (h.append (silent_sign _)).yields

theorem settles_value (name : Text) : Settles (valueLexemes name) [.access (accessed name)] := by
  intro c hc
  unfold valueLexemes
  split
  · have hname := settles_singleton (.word (accessed name)) c hc
    have hdot : Yields (.sign (.char '.') :: [.word (accessed name), .sign (.char c)]) [] :=
      (silent_sign _).yields.append hname
    exact .cons (m := some (.access (accessed name))) (fun _ => rfl) hdot
  · have haccessed : accessed name = name := accessed_of_not_isName (Bool.eq_false_iff.mpr ‹_›)
    rw [haccessed]
    have hrest : Silent [.sign (.char '['), .quoted name, .sign (.char ']'), .sign (.char c)] := by
      simp [Silent]
    exact .cons (m := some (.access name)) (fun _ => rfl) hrest.yields

theorem settles_member {value : List Lexeme} {optional : Bool} (h : Settles value ms) :
    Settles (memberLexemes name optional value) ms := by
  intro c hc
  have hcolon : Yields (.sign (.char ':') :: (value ++ [.sign (.char c)])) ms :=
    (silent_sign _).yields.append (h c hc)
  cases optional with
  | false => exact .cons_sign (by decide) hcolon
  | true =>
    have hmark :
        Yields (.sign (.char '?') :: .sign (.char ':') :: (value ++ [.sign (.char c)])) ms :=
      (silent_sign _).yields.append hcolon
    exact .cons_sign (by decide) hmark

/-- The lexemes of a type: a word with array markers, or words that open nothing. -/
inductive IsType : List Lexeme → Prop
  | silent {xs : List Lexeme} (h : Silent xs) : IsType xs
  | word (w : Text) : IsType [.word w]
  | array {xs : List Lexeme} (h : IsType xs) : IsType (xs ++ [.sign (.char '['), .sign (.char ']')])

/-- An array marker reads no member, even behind the word for the parameters. -/
theorem IsType.yields_append {zs : List Lexeme} (h : IsType xs) (hzs : Silent zs)
    (hstop : ∀ x ys, mention? x (zs ++ ys) = none) : Yields (xs ++ zs) [] := by
  induction h generalizing zs with
  | silent h => exact (h.append hzs).yields
  | word w => exact .cons (hstop _) hzs.yields
  | array _ ih =>
    rw [List.append_assoc]
    refine ih (.append (by decide) hzs) fun x ys => ?_
    simp [mention?, access?, constant?, function?]

theorem IsType.settles (h : IsType xs) : Settles xs [] :=
  fun _ hc => h.yields_append (silent_sign _) fun x ys => mention?_sign hc x ys

end Saying

section Texts
variable {s t : Text} {xs : List Lexeme} {ms ns : List Mention}

/-- Code that says these things wherever it stands, as long as no word goes on. -/
def Tells (t : Text) (ms : List Mention) : Prop :=
  ∃ xs, Reads t xs ∧ Free marks xs ∧ Yields xs ms

/-- Code that says these things in front of a sign that reads no member. -/
def TellsBeforeSign (t : Text) (ms : List Mention) : Prop :=
  ∃ xs, Reads t xs ∧ Free marks xs ∧ Settles xs ms

/-- Code that opens nothing. -/
def isSilent (t : Text) : Bool :=
  (lexicon.lex t).any fun xs => decide (Silent xs ∧ Free marks xs)

/-- A sign that reads no member, and nothing behind it that opens anything. -/
def isClosing : List Lexeme → Bool
  | .sign (.char c) :: xs =>
    decide (c ∉ ['.', '[']) && decide (Silent xs ∧ Free marks (.sign (.char c) :: xs))
  | _ => false

/-- Code that begins with a sign that reads no member, and opens nothing. -/
def closes (t : Text) : Bool :=
  t.head?.all (fun p => !p.is isNamePart) && (lexicon.lex t).any isClosing

theorem tells_of_lex (h : lexicon.lex t = some xs) (hxs : Free marks xs) (hs : Yields xs ms) :
    Tells t ms :=
  ⟨xs, fun _ hap => read_append_of_lex h hxs hap, hxs, hs⟩

theorem tellsBeforeSign_of_lex (h : lexicon.lex t = some xs) (hxs : Free marks xs)
    (hs : Settles xs ms) : TellsBeforeSign t ms :=
  ⟨xs, fun _ hap => read_append_of_lex h hxs hap, hxs, hs⟩

theorem tells_of_isSilent (h : isSilent t = true) : Tells t [] := by
  obtain ⟨xs, hlex, hxs⟩ := (Option.any_eq_true _ _).mp h
  obtain ⟨hsilent, hfree⟩ := of_decide_eq_true hxs
  exact tells_of_lex hlex hfree hsilent.yields

theorem Tells.append (hs : Tells s ms) (ht : Tells t ns) (h : lexicon.Apart s t) :
    Tells (s ++ t) (ms ++ ns) := by
  obtain ⟨xs, hread, hfree, hyields⟩ := hs
  obtain ⟨ys, hread', hfree', hyields'⟩ := ht
  exact ⟨xs ++ ys, hread.append hread' h, hfree.append hfree', hyields.append hyields'⟩

/-- Code that declares a constant, and opens nothing else. -/
def declares (name t : Text) : Bool :=
  (lexicon.lex t).any fun xs => decide (xs.head? = some (.word "const") ∧
    xs.tail.head? = some (.word name) ∧ Silent xs.tail ∧ Free marks xs)

theorem tells_of_declares {name : Text} (h : declares name t = true) :
    Tells t [.constant name] := by
  obtain ⟨xs, hlex, hxs⟩ := (Option.any_eq_true _ _).mp h
  obtain ⟨hconst, hname, hsilent, hfree⟩ := of_decide_eq_true hxs
  obtain ⟨rest, rfl⟩ := List.head?_eq_some_iff.mp hconst
  obtain ⟨zs, rfl⟩ := List.head?_eq_some_iff.mp hname
  exact tells_of_lex hlex hfree (.cons (m := some (.constant name)) (fun _ => rfl) hsilent.yields)

theorem Tells.append_beforeSign (hs : Tells s ms) (ht : TellsBeforeSign t ns)
    (h : lexicon.Apart s t) : TellsBeforeSign (s ++ t) (ms ++ ns) := by
  obtain ⟨xs, hread, hfree, hyields⟩ := hs
  obtain ⟨ys, hread', hfree', hsettles⟩ := ht
  refine ⟨xs ++ ys, hread.append hread' h, hfree.append hfree', fun c hc => ?_⟩
  rw [List.append_assoc]
  exact hyields.append (hsettles c hc)

theorem TellsBeforeSign.close (hs : TellsBeforeSign s ms) (ht : closes t = true) :
    Tells (s ++ t) ms := by
  obtain ⟨xs, hread, hfree, hsettles⟩ := hs
  rw [closes, Bool.and_eq_true] at ht
  obtain ⟨ys, hlex, hclosing⟩ := (Option.any_eq_true _ _).mp ht.2
  have hapart : lexicon.Apart s t :=
    Lexicon.apart_of_head fun p hp => by simpa [lexicon] using (Option.all_eq_true _ _).mp ht.1 p hp
  unfold isClosing at hclosing
  split at hclosing
  · rename_i c zs
    simp only [Bool.and_eq_true, decide_eq_true_eq] at hclosing
    obtain ⟨hc, hsilent, hmarks⟩ := hclosing
    have hyields : Yields (xs ++ .sign (.char c) :: zs) (ms ++ []) := by
      have happend := (hsettles c hc).append hsilent.yields
      rwa [List.append_assoc] at happend
    rw [List.append_nil] at hyields
    refine ⟨_, hread.append (fun _ hap => read_append_of_lex hlex hmarks hap) hapart,
      hfree.append hmarks, hyields⟩
  · cases hclosing

/-- Something between what opens it and what closes it. -/
theorem Tells.around {u : Text} (hs : Tells s ms) (h : lexicon.Apart s t)
    (ht : TellsBeforeSign t ns) (hu : closes u = true) : Tells (s ++ t ++ u) (ms ++ ns) :=
  (hs.append_beforeSign ht h).close hu

theorem tells_of_closes (h : closes t = true) : Tells t [] := by
  have hempty : TellsBeforeSign [] [] :=
    ⟨[], fun rest _ => by simp, by simp [Free], Silent.settles (by simp [Silent])⟩
  exact hempty.close h

/-- Items with commas between them, and what closes the list. -/
theorem tells_joined {α : Type} {text : α → Text} {said : α → List Mention} {as : List α}
    (h : ∀ a ∈ as, TellsBeforeSign (text a) (said a)) (ht : closes t = true) :
    Tells (joined ", " (as.map text) ++ t) (as.flatMap said) := by
  induction as with
  | nil => exact tells_of_closes ht
  | cons a as ih =>
    have ha := h a List.mem_cons_self
    have has := ih fun b hb => h b (List.mem_cons_of_mem _ hb)
    cases as with
    | nil => simpa [joined] using ha.close ht
    | cons b as =>
      have hcomma : Tells (text a ++ ", ") (said a) := ha.close (by decide +kernel)
      have hstands : lexicon.Stands ", " := by decide
      have happend := hcomma.append has hstands.append_apart
      simpa [joined, List.intercalate_cons_cons] using happend

theorem tellsBeforeSign_word (h : IsWord t) : TellsBeforeSign t [] :=
  tellsBeforeSign_of_lex (Lexicon.lex_of_over h.1 h.2) (by simp [Free, marks])
    (settles_singleton (.word t))

theorem tellsBeforeSign_literal (s : Text) : TellsBeforeSign (literal s) [] :=
  tellsBeforeSign_of_lex (lex_literal s) (by simp [Free, marks]) (silent_quoted s).settles

theorem free_marks_valueLexemes (name : Text) : Free marks (valueLexemes name) := by
  unfold valueLexemes
  split <;> simp [Free, marks]

theorem free_marks_memberLexemes {name : Text} {optional : Bool} {value : List Lexeme}
    (h : Free marks value) : Free marks (memberLexemes name optional value) := by
  have hkey : Free marks [keyLexeme name] := by
    unfold keyLexeme
    split <;> simp [Free, marks]
  have hcolon : Free marks (.sign (.char ':') :: value) :=
    List.forall_mem_cons.mpr ⟨by decide, h⟩
  cases optional with
  | false => exact hkey.append hcolon
  | true => exact hkey.append (List.forall_mem_cons.mpr ⟨by decide, hcolon⟩)

theorem tellsBeforeSign_member (name : Text) :
    TellsBeforeSign (member "params" name) [.access (accessed name)] :=
  tellsBeforeSign_of_lex (lex_member name) (free_marks_valueLexemes name) (settles_value name)

theorem tellsBeforeSign_entry (name : Text) :
    TellsBeforeSign (propertyKey name ++ ": " ++ member "params" name)
      [.access (accessed name)] :=
  tellsBeforeSign_of_lex (lex_entry name) (free_marks_memberLexemes (free_marks_valueLexemes name))
    (settles_member (settles_value name))

theorem exists_isType {p : Text → Prop} {x : Text} (h : DataType.Expression p x) :
    ∃ xs, lexicon.lex x = some xs ∧ Free marks xs ∧ IsType xs := by
  induction h with
  | builtIn h =>
    have hall : ∀ x ∈ DataType.builtIn,
        (lexicon.lex x).any (fun xs => decide (Silent xs ∧ Free marks xs)) = true := by
      decide +kernel
    obtain ⟨xs, hlex, hxs⟩ := (Option.any_eq_true _ _).mp (hall _ h)
    obtain ⟨hsilent, hfree⟩ := of_decide_eq_true hxs
    exact ⟨xs, hlex, hfree, .silent hsilent⟩
  | interface hp hne =>
    have hover := (isWord_of_over hne (Identifier.over_clean (by decide))).2
    exact ⟨_, Lexicon.lex_of_over hne hover, by simp [Free, marks], .word _⟩
  | array _ ih =>
    obtain ⟨xs, hlex, hfree, htype⟩ := ih
    have hmark : lexicon.lex "[]" = some [.sign (.char '['), .sign (.char ']')] := by
      decide +kernel
    exact ⟨_, Lexicon.lex_append_eq_some hlex hmark (Lexicon.apart_of_head (by decide)),
      hfree.append (by decide), htype.array⟩

theorem tellsBeforeSign_type {p : Text → Prop} {x : Text} (h : DataType.Expression p x) :
    TellsBeforeSign x [] := by
  obtain ⟨xs, hlex, hfree, htype⟩ := exists_isType h
  exact tellsBeforeSign_of_lex hlex hfree htype.settles

theorem tells_field {p : Text → Prop} {f : Field} (h : DataType.Expression p f.type) :
    Tells f.code [] := by
  obtain ⟨xs, hplain⟩ := isPlain_expression h
  obtain ⟨ys, hlex, hfree, htype⟩ := exists_isType h
  have hsame : (lexicon.lex f.type).getD [] = ys := by rw [hlex]; rfl
  refine tells_of_lex (lex_fieldCode hplain) ?_ ?_
  · rw [Field.lexemes, hsame]
    exact (free_marks_memberLexemes hfree).append (by decide)
  · rw [Field.lexemes, hsame]
    exact settles_member htype.settles ';' (by decide)

end Texts

end ApiScaffold.Client
