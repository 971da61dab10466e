/-
  File:      SchemaCompiler/Proofs/Json/Documents.lean
  Subject:   Reading a document is deriving it.

  * `readsValue_of_reads`, `reads_of_readsValue` -- what the value reader does, by the first
    character;
  * `follows_readValue` -- with a budget `b` it follows the grammar on the trees of depth at most
    `b`; by induction on the budget, which a bracket spends and a sibling does not;
  * **`parse_eq_ok_iff`** -- a text is read as the tree `node` exactly if the grammar derives it as
    `node` and arrays and objects nest at most 128 deep in it.
-/
import SchemaCompiler.Proofs.Json.Readers

namespace SchemaCompiler

open Grammar

/-! ## 1. Values in general -/

/-- The span of a derived value is where its text stands. -/
theorem Grammar.IsValue.span_eq {text : List Char} {start : Nat} {node : Node}
    (h : IsValue text start node) : node.span = covering start text := by
  cases h <;> rfl

theorem Grammar.NumberToken.begins {token : List Char} {n : Numeral} (h : NumberToken token n) :
    ∃ c rest, token = c :: rest ∧ Cursor.isBlank c = false ∧ c ≠ ']' := by
  obtain ⟨c, rest, rfl, hc⟩ := h.head
  refine ⟨c, rest, rfl, ?_⟩
  rcases hc with rfl | hc
  · exact ⟨by decide, by decide⟩
  · obtain ⟨h0, h9⟩ := isDigit_iff.mp hc
    refine ⟨?_, fun e => absurd (e ▸ h9) (by decide)⟩
    rw [← Bool.not_eq_true, Cursor.isBlank_iff]
    intro hblank
    rcases hblank with rfl | rfl | rfl | rfl <;> exact absurd h0 (by decide)

/-- A value begins neither with a blank nor with the bracket that ends an array. -/
theorem begins_isValue : Begins IsValue fun c => Cursor.isBlank c = false ∧ c ≠ ']' := by
  intro text start node h
  cases h with
  | number hn => exact hn.begins
  | _ => exact ⟨_, _, rfl, by decide, by decide⟩

/-- A member begins with the quote of its name. -/
theorem begins_memberText (rule : Production Node) :
    Begins (MemberText rule) fun c => Cursor.isBlank c = false ∧ c ≠ '\x7d' := by
  intro text start member h
  cases h
  exact ⟨_, _, rfl, by decide, by decide⟩

/-! ## 2. The depth along a derivation -/

section Depth

variable {α : Type} {rule : Production α} {p : α → Prop}

/-- A condition on the parts can be asked of each while it is derived, or of all of them after. -/
theorem Grammar.Parts.and_iff {body : List Char} {start : Nat} {parts : List α} :
    Parts (fun text start a => rule text start a ∧ p a) body start parts ↔
      Parts rule body start parts ∧ ∀ a ∈ parts, p a := by
  constructor
  · intro h
    induction h with
    | last hbefore h hafter => exact ⟨.last hbefore h.1 hafter, by simpa using h.2⟩
    | more hbefore h hafter _ ih =>
      exact ⟨.more hbefore h.1 hafter ih.1, List.forall_mem_cons.mpr ⟨h.2, ih.2⟩⟩
  · intro hboth
    obtain ⟨h, hp⟩ := hboth
    induction h with
    | last hbefore h hafter => exact .last hbefore ⟨h, by simpa using hp⟩ hafter
    | more hbefore h hafter _ ih =>
      obtain ⟨hfirst, hrest⟩ := List.forall_mem_cons.mp hp
      exact .more hbefore ⟨h, hfirst⟩ hafter (ih hrest)

theorem Grammar.MemberText.and_iff {rule : Production Node} {p : Node → Prop} {text : List Char}
    {start : Nat} {member : Member Node} :
    MemberText (fun text start node => rule text start node ∧ p node) text start member ↔
      MemberText rule text start member ∧ p member.value := by
  constructor
  · intro hboth
    obtain ⟨hbody, hbefore, hafter, h, hp⟩ := hboth
    exact ⟨.mk hbody hbefore hafter h, hp⟩
  · intro hboth
    obtain ⟨⟨hbody, hbefore, hafter, h⟩, hp⟩ := hboth
    exact .mk hbody hbefore hafter ⟨h, hp⟩

end Depth

/-- The values whose trees are at most `budget` deep. -/
def ValueWithin (budget : Nat) : Production Node := fun text start node =>
  IsValue text start node ∧ node.depth ≤ budget

/-- Items within a budget are derived items that are not too deep. -/
theorem itemsWithin_iff {budget : Nat} {body : List Char} {start : Nat} {items : List Node} :
    Parts (ValueWithin budget) body start items ↔
      Parts IsValue body start items ∧ itemsDepth items ≤ budget := by
  rw [itemsDepth_le_iff]
  exact Parts.and_iff

/-- Members within a budget are derived members whose values are not too deep. -/
theorem membersWithin_iff {budget : Nat} {body : List Char} {start : Nat}
    {members : List (Member Node)} :
    Parts (MemberText (ValueWithin budget)) body start members ↔
      Parts (MemberText IsValue) body start members ∧ membersDepth members ≤ budget := by
  have e : MemberText (ValueWithin budget) = fun text start member =>
      MemberText IsValue text start member ∧ member.value.depth ≤ budget := by
    funext text start member
    exact propext MemberText.and_iff
  rw [e, Parts.and_iff, membersDepth_le_iff]

/-! ## 3. The value reader -/

/-- What the value reader does at a cursor, by the first character. -/
inductive ReadsValue : Nat → Cursor → Node → Cursor → Prop
  | object {budget : Nat} {c d : Cursor} {rest : List Char} {members : List (Member Node)} :
      c.rest = '\x7b' :: rest →
      Reads (readBetween '\x7d' .commaOrBraceDue (readMember (readValue budget)))
        ⟨rest, c.offset + 1⟩ members d →
      ReadsValue (budget + 1) c (.object members (c.spanTo d.offset)) d
  | array {budget : Nat} {c d : Cursor} {rest : List Char} {items : List Node} :
      c.rest = '[' :: rest →
      Reads (readBetween ']' .commaOrBracketDue (readValue budget)) ⟨rest, c.offset + 1⟩ items d →
      ReadsValue (budget + 1) c (.array items (c.spanTo d.offset)) d
  | string {budget : Nat} {c d : Cursor} {rest : List Char} {text : String} {span : Span} :
      c.rest = '"' :: rest →
      Reads (readString c.offset) ⟨rest, c.offset + 1⟩ (text, span) d →
      ReadsValue budget c (.string text span) d
  | true {budget : Nat} {c d : Cursor} {node : Node} :
      c.rest.head? = some 't' → Reads (readWord .true (.boolean .true)) c node d →
      ReadsValue budget c node d
  | false {budget : Nat} {c d : Cursor} {node : Node} :
      c.rest.head? = some 'f' → Reads (readWord .false (.boolean .false)) c node d →
      ReadsValue budget c node d
  | null {budget : Nat} {c d : Cursor} {node : Node} :
      c.rest.head? = some 'n' → Reads (readWord .null .null) c node d →
      ReadsValue budget c node d
  | number {budget : Nat} {c d : Cursor} {node : Node} {first : Char} :
      c.rest.head? = some first → first = '-' ∨ isDigit first = .true → Reads readNumber c node d →
      ReadsValue budget c node d

/-- A value that is read is of the form its first character announces. -/
theorem readsValue_of_reads {budget : Nat} {c d : Cursor} {node : Node}
    (h : Reads (readValue budget) c node d) : ReadsValue budget c node d := by
  obtain ⟨shorter, h⟩ := h
  unfold readValue at h
  split at h
  · cases h
  · rename_i first rest hrest
    have hhead : c.rest.head? = some first := by rw [hrest]; rfl
    simp only at h
    split at h
    · rename_i hfirst
      subst hfirst
      split at h
      · cases h
      · split at h
        · cases h
        · rename_i members last hlast hread
          simp only [Except.ok.injEq, Prod.mk.injEq, Subtype.mk.injEq] at h
          obtain ⟨rfl, rfl⟩ := h
          exact .object hrest ⟨hlast, hread⟩
    · split at h
      · rename_i hfirst
        subst hfirst
        split at h
        · cases h
        · split at h
          · cases h
          · rename_i items last hlast hread
            simp only [Except.ok.injEq, Prod.mk.injEq, Subtype.mk.injEq] at h
            obtain ⟨rfl, rfl⟩ := h
            exact .array hrest ⟨hlast, hread⟩
      · split at h
        · rename_i hfirst
          subst hfirst
          split at h
          · cases h
          · rename_i text span last hlast hread
            simp only [Except.ok.injEq, Prod.mk.injEq, Subtype.mk.injEq] at h
            obtain ⟨rfl, rfl⟩ := h
            exact .string hrest ⟨hlast, hread⟩
        · split at h
          · rename_i hfirst
            exact .true (hfirst ▸ hhead) ⟨shorter, h⟩
          · split at h
            · rename_i hfirst
              exact .false (hfirst ▸ hhead) ⟨shorter, h⟩
            · split at h
              · rename_i hfirst
                exact .null (hfirst ▸ hhead) ⟨shorter, h⟩
              · split at h
                · rename_i hfirst
                  exact .number hhead hfirst ⟨shorter, h⟩
                · cases h

/-- At a sign or a digit the reader of numbers takes over. -/
theorem readValue_eq_readNumber {c : Cursor} {first : Char} (budget : Nat)
    (hhead : c.rest.head? = some first) (hfirst : first = '-' ∨ isDigit first = true) :
    readValue budget c = readNumber c := by
  obtain ⟨rest, offset⟩ := c
  obtain ⟨rest, rfl⟩ := List.head?_eq_some_iff.mp hhead
  have hne : ∀ c : Char, c ≠ '-' → isDigit c = false → first ≠ c := by
    intro c hminus hdigit heq
    subst heq
    rcases hfirst with h | h
    · exact hminus h
    · rw [hdigit] at h
      cases h
  rw [readValue]
  simp only [hne '\x7b' (by decide) (by decide), hne '[' (by decide) (by decide),
    hne '"' (by decide) (by decide), hne 't' (by decide) (by decide),
    hne 'f' (by decide) (by decide), hne 'n' (by decide) (by decide), hfirst, ↓reduceIte]

/-- Each form is read where its first character stands. -/
theorem reads_of_readsValue {budget : Nat} {c d : Cursor} {node : Node}
    (h : ReadsValue budget c node d) : Reads (readValue budget) c node d := by
  obtain ⟨rest, offset⟩ := c
  cases h with
  | object hrest h =>
    obtain ⟨hlast, hread⟩ := h
    simp only at hrest hlast
    subst hrest
    refine ⟨Nat.lt_succ_of_lt hlast, ?_⟩
    simp only [readValue, ↓reduceIte, hread]
  | array hrest h =>
    obtain ⟨hlast, hread⟩ := h
    simp only at hrest hlast
    subst hrest
    refine ⟨Nat.lt_succ_of_lt hlast, ?_⟩
    simp only [readValue, Char.reduceEq, ↓reduceIte, hread]
  | string hrest h =>
    obtain ⟨hlast, hread⟩ := h
    simp only at hrest hlast
    subst hrest
    refine ⟨Nat.lt_succ_of_lt hlast, ?_⟩
    simp only [readValue, Char.reduceEq, ↓reduceIte, hread]
  | true hhead h =>
    obtain ⟨hlast, hread⟩ := h
    obtain ⟨rest, rfl⟩ := List.head?_eq_some_iff.mp hhead
    refine ⟨hlast, ?_⟩
    simp only [readValue, Char.reduceEq, ↓reduceIte, hread]
  | false hhead h =>
    obtain ⟨hlast, hread⟩ := h
    obtain ⟨rest, rfl⟩ := List.head?_eq_some_iff.mp hhead
    refine ⟨hlast, ?_⟩
    simp only [readValue, Char.reduceEq, ↓reduceIte, hread]
  | null hhead h =>
    obtain ⟨hlast, hread⟩ := h
    obtain ⟨rest, rfl⟩ := List.head?_eq_some_iff.mp hhead
    refine ⟨hlast, ?_⟩
    simp only [readValue, Char.reduceEq, ↓reduceIte, hread]
  | number hhead hfirst h =>
    unfold Reads
    rw [readValue_eq_readNumber _ hhead hfirst]
    exact h

theorem spanTo_eq_covering {c d : Cursor} {text : List Char} (h : c.Covers text d) :
    c.spanTo d.offset = covering c.offset text := by
  rw [Cursor.spanTo, covering, h.2]

/-! ## 4. The readers between brackets -/

theorem isMark_openBracket : IsMark '[' := ⟨by decide, by decide, by decide⟩

theorem isMark_closeBracket : IsMark ']' := ⟨by decide, by decide, by decide⟩

theorem isMark_openBrace : IsMark '\x7b' := ⟨by decide, by decide, by decide⟩

theorem isMark_closeBrace : IsMark '\x7d' := ⟨by decide, by decide, by decide⟩

section Brackets

variable {budget : Nat} (ih : Follows (readValue budget) (ValueWithin budget))
include ih

/-- The items of an array are read as they are derived. -/
theorem follows_items (due : SyntaxCause) :
    Follows (readBetween ']' due (readValue budget)) (BetweenText (ValueWithin budget) ']') :=
  follows_readBetween ih isMark_closeBracket (by decide) fun text start node h =>
    begins_isValue text start node h.1

theorem follows_member :
    Follows (readMember (readValue budget)) (MemberText (ValueWithin budget)) := by
  refine follows_readMember ih ?_ fun _ _ _ h => h.1.span_eq
  intro text start node h
  exact begins_isValue.mono (fun _ hc => hc.1) text start node h.1

/-- The members of an object are read as they are derived. -/
theorem follows_members (due : SyntaxCause) :
    Follows (readBetween '\x7d' due (readMember (readValue budget)))
      (BetweenText (MemberText (ValueWithin budget)) '\x7d') :=
  follows_readBetween (follows_member ih) isMark_closeBrace (by decide) (begins_memberText _)

end Brackets

/-- An array is one level deeper than what stands between its brackets. -/
theorem arrayWithin_of_between {budget start : Nat} {text : List Char} {items : List Node}
    (h : BetweenText (ValueWithin budget) ']' text (start + 1) items) :
    ValueWithin (budget + 1) ('[' :: text) start (.array items (covering start ('[' :: text))) := by
  obtain ⟨body, rfl, ⟨hblanks, rfl⟩ | hparts⟩ := h
  · exact ⟨.emptyArray hblanks, by simp [Node.depth, itemsDepth]⟩
  · obtain ⟨hitems, hdepth⟩ := itemsWithin_iff.mp hparts
    exact ⟨.array hitems, Nat.succ_le_succ hdepth⟩

/-- An object is one level deeper than what stands between its braces. -/
theorem objectWithin_of_between {budget start : Nat} {text : List Char}
    {members : List (Member Node)}
    (h : BetweenText (MemberText (ValueWithin budget)) '\x7d' text (start + 1) members) :
    ValueWithin (budget + 1) ('\x7b' :: text) start
      (.object members (covering start ('\x7b' :: text))) := by
  obtain ⟨body, rfl, ⟨hblanks, rfl⟩ | hparts⟩ := h
  · exact ⟨.emptyObject hblanks, by simp [Node.depth, membersDepth]⟩
  · obtain ⟨hmembers, hdepth⟩ := membersWithin_iff.mp hparts
    exact ⟨.object hmembers, Nat.succ_le_succ hdepth⟩

/-- What stands in an array is one level less deep. -/
theorem between_of_arrayWithin {budget start : Nat} {text : List Char} {items : List Node}
    {span : Span} (h : ValueWithin budget text start (.array items span)) :
    ∃ b inner, budget = b + 1 ∧ text = '[' :: inner ∧ span = covering start text ∧
      BetweenText (ValueWithin b) ']' inner (start + 1) items := by
  obtain ⟨hvalue, hdepth⟩ := h
  cases budget with
  | zero => exact absurd hdepth (Nat.not_succ_le_zero _)
  | succ b =>
    cases hvalue with
    | emptyArray hblanks => exact ⟨b, _, rfl, rfl, rfl, _, rfl, .inl ⟨hblanks, rfl⟩⟩
    | array hparts =>
      have hitems := itemsWithin_iff.mpr ⟨hparts, Nat.le_of_succ_le_succ hdepth⟩
      exact ⟨b, _, rfl, rfl, rfl, _, rfl, .inr hitems⟩

/-- What stands in an object is one level less deep. -/
theorem between_of_objectWithin {budget start : Nat} {text : List Char}
    {members : List (Member Node)} {span : Span}
    (h : ValueWithin budget text start (.object members span)) :
    ∃ b inner, budget = b + 1 ∧ text = '\x7b' :: inner ∧ span = covering start text ∧
      BetweenText (MemberText (ValueWithin b)) '\x7d' inner (start + 1) members := by
  obtain ⟨hvalue, hdepth⟩ := h
  cases budget with
  | zero => exact absurd hdepth (Nat.not_succ_le_zero _)
  | succ b =>
    cases hvalue with
    | emptyObject hblanks => exact ⟨b, _, rfl, rfl, rfl, _, rfl, .inl ⟨hblanks, rfl⟩⟩
    | object hparts =>
      have hmembers := membersWithin_iff.mpr ⟨hparts, Nat.le_of_succ_le_succ hdepth⟩
      exact ⟨b, _, rfl, rfl, rfl, _, rfl, .inr hmembers⟩

/-! ## 5. Values -/

/-- One level of soundness: what is less deep is read as it is derived. -/
theorem readValue_sound {budget : Nat} {c d : Cursor} {node : Node}
    (ih : ∀ b, budget = b + 1 → Follows (readValue b) (ValueWithin b))
    (hreads : Reads (readValue budget) c node d) :
    ∃ text, c.Covers text d ∧ ValueWithin budget text c.offset node := by
  cases readsValue_of_reads hreads with
  | object hrest h =>
    obtain ⟨text, htext, hbetween⟩ := (follows_members (ih _ rfl) _).sound h
    have hcovers := isMark_openBrace.covers_cons_iff.mpr ⟨_, hrest, htext⟩
    rw [spanTo_eq_covering hcovers]
    exact ⟨_, hcovers, objectWithin_of_between hbetween⟩
  | array hrest h =>
    obtain ⟨text, htext, hbetween⟩ := (follows_items (ih _ rfl) _).sound h
    have hcovers := isMark_openBracket.covers_cons_iff.mpr ⟨_, hrest, htext⟩
    rw [spanTo_eq_covering hcovers]
    exact ⟨_, hcovers, arrayWithin_of_between hbetween⟩
  | string hrest h =>
    obtain ⟨token, htoken, body, decoded, rfl, hbody, he⟩ := (follows_readString _).sound h
    have hcovers := (isMark_quote.covers hrest).trans htoken
    rw [Prod.mk.injEq, ← covering_quoted] at he
    obtain ⟨rfl, rfl⟩ := he
    exact ⟨_, hcovers, .string hbody, Nat.zero_le _⟩
  | true hhead h =>
    obtain ⟨text, htext, rfl, rfl⟩ := (follows_readWord _ _).sound h
    exact ⟨_, htext, .true, Nat.zero_le _⟩
  | false hhead h =>
    obtain ⟨text, htext, rfl, rfl⟩ := (follows_readWord _ _).sound h
    exact ⟨_, htext, .false, Nat.zero_le _⟩
  | null hhead h =>
    obtain ⟨text, htext, rfl, rfl⟩ := (follows_readWord _ _).sound h
    exact ⟨_, htext, .null, Nat.zero_le _⟩
  | number hhead hfirst h =>
    obtain ⟨text, htext, n, hn, rfl⟩ := follows_readNumber.sound h
    exact ⟨_, htext, .number hn, Nat.zero_le _⟩

/-- Only a number asks for something of what follows it. -/
theorem readValue_complete {budget : Nat} {c d : Cursor} {node : Node} {text : List Char}
    (ih : ∀ b, budget = b + 1 → Follows (readValue b) (ValueWithin b))
    (hcovers : c.Covers text d) (h : ValueWithin budget text c.offset node)
    (hstop : ∀ n span, node = .number n span → Stops isNumberChar d.rest) :
    Reads (readValue budget) c node d := by
  refine reads_of_readsValue ?_
  cases node with
  | object members span =>
    obtain ⟨b, inner, rfl, rfl, rfl, hbetween⟩ := between_of_objectWithin h
    obtain ⟨rest, hrest, hinner⟩ := isMark_openBrace.covers_cons_iff.mp hcovers
    rw [← spanTo_eq_covering hcovers]
    exact .object hrest (readBetween_complete (follows_member (ih b rfl)) isMark_closeBrace
      (by decide) (begins_memberText _) hinner hbetween)
  | array items span =>
    obtain ⟨b, inner, rfl, rfl, rfl, hbetween⟩ := between_of_arrayWithin h
    obtain ⟨rest, hrest, hinner⟩ := isMark_openBracket.covers_cons_iff.mp hcovers
    rw [← spanTo_eq_covering hcovers]
    exact .array hrest (readBetween_complete (ih b rfl) isMark_closeBracket (by decide)
      (fun text start node h => begins_isValue text start node h.1) hinner hbetween)
  | string text span =>
    cases h.1 with
    | string hbody =>
      obtain ⟨rest, hrest, htoken⟩ := isMark_quote.covers_cons_iff.mp hcovers
      rw [covering_quoted]
      exact .string hrest (readString_complete _ htoken hbody)
  | number n span =>
    cases h.1 with
    | number hn =>
      obtain ⟨first, rest, rfl, hfirst⟩ := hn.head
      refine .number ?_ hfirst (follows_readNumber.complete hcovers ⟨_, hn, rfl⟩ (hstop _ _ rfl))
      rw [hcovers.1]
      rfl
  | boolean b span =>
    cases h.1 with
    | true =>
      refine .true ?_ (readWord_complete hcovers rfl rfl)
      rw [hcovers.1]
      rfl
    | false =>
      refine .false ?_ (readWord_complete hcovers rfl rfl)
      rw [hcovers.1]
      rfl
  | null span =>
    cases h.1 with
    | null =>
      refine .null ?_ (readWord_complete hcovers rfl rfl)
      rw [hcovers.1]
      rfl

/-- One level: a value is read as it is derived if all that is less deep is. -/
theorem follows_of_less {budget : Nat}
    (ih : ∀ b, budget = b + 1 → Follows (readValue b) (ValueWithin b)) :
    Follows (readValue budget) (ValueWithin budget) where
  sound := readValue_sound ih
  complete := fun hcovers h hstop => readValue_complete ih hcovers h fun _ _ _ => hstop

/-- **The value reader follows the grammar** on the trees that its budget is enough for. -/
theorem follows_readValue (budget : Nat) : Follows (readValue budget) (ValueWithin budget) := by
  induction budget with
  | zero =>
    refine follows_of_less fun b heq => ?_
    omega
  | succ b hb =>
    refine follows_of_less fun b' heq => ?_
    cases heq
    exact hb

/-! ## 6. Documents -/

/-- A document is a value between blanks and nothing else. -/
theorem read_eq_ok_iff {source : List Char} {node : Node} :
    Node.read source = .ok node ↔
      ∃ last, Reads (readValue depthLimit) (Cursor.skipBlanks ⟨source, 0⟩) node last ∧
        last.skipBlanks.rest = [] := by
  unfold Node.read
  constructor
  · intro h
    split at h
    · cases h
    · rename_i node' last hlast hread
      split at h
      · rename_i hempty
        cases h
        exact ⟨last, ⟨hlast, hread⟩, List.isEmpty_iff.mp hempty⟩
      · cases h
  · intro hend
    obtain ⟨last, ⟨hlast, hread⟩, hempty⟩ := hend
    simp only [hread, hempty, List.isEmpty_nil, ↓reduceIte]

/-- **A text is read as a tree exactly if the grammar derives it as that tree** and arrays and
    objects nest at most 128 deep in it. -/
theorem parse_eq_ok_iff (source : String) (node : Node) :
    Node.parse source = .ok node ↔ IsDocument source.toList node ∧ node.depth ≤ 128 := by
  unfold Node.parse
  rw [read_eq_ok_iff]
  constructor
  · intro h
    obtain ⟨last, hread, hempty⟩ := h
    obtain ⟨before, hbefore, hc⟩ := Cursor.skipBlanks_sound ⟨source.toList, 0⟩
    obtain ⟨text, htext, hvalue, hdepth⟩ := (follows_readValue depthLimit).sound hread
    obtain ⟨after, hafter, hlast⟩ := last.skipBlanks_sound
    have hsource := (hc.trans (htext.trans hlast)).1
    rw [hempty, List.append_nil] at hsource
    rw [hc.2, Nat.zero_add] at hvalue
    simp only at hsource
    rw [hsource]
    exact ⟨.mk hbefore hvalue hafter, hdepth⟩
  · intro h
    obtain ⟨hdocument, hdepth⟩ := h
    generalize source.toList = text at hdocument ⊢
    cases hdocument with
    | @mk before text after _ hbefore hvalue hafter =>
      have hcovers : Cursor.Covers ⟨before ++ (text ++ after), 0⟩ (before ++ (text ++ after))
          ⟨[], 0 + byteLength (before ++ (text ++ after))⟩ := ⟨by simp, rfl⟩
      obtain ⟨c, hc, hcovers⟩ := hcovers.split
      obtain ⟨last, htext, hlast⟩ := hcovers.split
      have hskip := Cursor.skipBlanks_complete hlast hafter (stops_nil _)
      have hstop : Stops isNumberChar last.rest := by
        rw [hlast.1]
        exact stops_blanks hafter (stops_nil _)
      rw [← Nat.zero_add (byteLength before), ← hc.2] at hvalue
      obtain ⟨first, rest, hfirst, hblank, -⟩ := begins_isValue _ _ _ hvalue
      have hbegins : Stops Cursor.isBlank c.rest := by
        rw [htext.1, hfirst]
        exact stops_cons.mpr hblank
      refine ⟨last, ?_, by rw [hskip]⟩
      rw [Cursor.skipBlanks_complete hc hbefore hbegins]
      exact (follows_readValue depthLimit).complete htext ⟨hvalue, hdepth⟩ hstop

end SchemaCompiler
