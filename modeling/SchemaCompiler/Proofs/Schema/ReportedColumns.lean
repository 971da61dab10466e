/-
  File:      SchemaCompiler/Proofs/Schema/ReportedColumns.lean
  Subject:   Where the spans of diagnostics end, and what their columns count.

  A remark about a tree covers whole characters, and so does an error about a token. An error about
  the next character covers one byte of it, however many it takes (`Cursor.fail`). So the span of
  every diagnostic begins at a character, and ends at one unless it is a syntax error at a character
  of several bytes.

  * `Span.Reaches` -- how far a span reaches into the text from its start on; `Cursor.Marks` -- the
    same for the text at a cursor, which all readers keep (`marking_readValue`);
  * **`columns_count_characters_iff`** -- the columns of the start always count characters, those of
    the end unless the span is such an error; then they count bytes. One such error is shown by
    `split_character`.
-/
import SchemaCompiler.Proofs.Json.ViablePrefixes
import SchemaCompiler.Proofs.Schema.SourceOrder
import SchemaCompiler.Proofs.Text.Positions
import SchemaCompiler.Proofs.Text.Utf8

namespace SchemaCompiler

open Grammar

/-! ## 1. How far a span reaches -/

/-- The span covers a part of the text, which begins with a character of one byte; or it covers one
    byte of a character of several. -/
inductive Span.Reaches (span : Span) : List Char → Prop
  | part {part more : List Char} :
      (∀ x ∈ (part ++ more).head?, x.utf8Size = 1) →
      span.stop = span.start + byteLength part → span.Reaches (part ++ more)
  | byte {x : Char} {more : List Char} :
      1 < x.utf8Size → span.stop = span.start + 1 → span.Reaches (x :: more)

/-- The span stands in the text at the cursor. -/
def Cursor.Marks (c : Cursor) (span : Span) : Prop :=
  ∃ eaten left, c.rest = eaten ++ left ∧ span.start = c.offset + byteLength eaten ∧
    span.Reaches left

theorem Cursor.Covers.marks {c d : Cursor} {text : List Char} {span : Span}
    (h : c.Covers text d) (hspan : d.Marks span) : c.Marks span := by
  obtain ⟨eaten, left, hrest, hstart, hreaches⟩ := hspan
  refine ⟨text ++ eaten, left, ?_, ?_, hreaches⟩
  · rw [h.1, hrest, List.append_assoc]
  · rw [hstart, h.2, byteLength_append, Nat.add_assoc]

/-- A token at the cursor, or all that is left of one. -/
theorem Cursor.Covers.marks_token {c d : Cursor} {first : Char} {token : List Char}
    (h : c.Covers (first :: token) d) (hfirst : first.utf8Size = 1) :
    c.Marks ⟨c.offset, d.offset⟩ := by
  refine ⟨[], c.rest, rfl, rfl, ?_⟩
  rw [h.1]
  refine .part (fun x hx => ?_) h.2
  cases hx
  exact hfirst

/-- **An error about the next character** reaches over it if it takes one byte. -/
theorem Cursor.marks_fail (c : Cursor) (cause : SyntaxCause) : c.Marks (c.fail cause).span := by
  refine ⟨[], c.rest, rfl, rfl, ?_⟩
  obtain ⟨rest, offset⟩ := c
  cases rest with
  | nil => exact @Span.Reaches.part _ [] [] (fun x hx => by cases hx) rfl
  | cons x more =>
    by_cases hone : x.utf8Size = 1
    · refine @Span.Reaches.part _ [x] more (fun y hy => ?_) ?_
      · cases hy
        exact hone
      · rw [byteLength_cons, hone]
        rfl
    · have hpos := x.utf8Size_pos
      exact .byte (by omega) rfl

/-! ## 2. Tokens -/

theorem utf8Size_of_isDigit {c : Char} (h : isDigit c = true) : c.utf8Size = 1 :=
  utf8Size_of_toNat_lt (Nat.lt_of_le_of_lt (isDigit_iff.mp h).2 (by decide))

theorem marks_readWord {word : Word} {node : Span → Node} {c : Cursor} {e : SyntaxError}
    (h : readWord word node c = .error e) : c.Marks e.span := by
  simp only [readWord] at h
  split at h
  · cases h
  · cases h
    exact c.marks_fail _

theorem marks_readNumber {c : Cursor} {first : Char} {e : SyntaxError}
    (hhead : c.rest.head? = some first) (hfirst : first = '-' ∨ isDigit first = true)
    (h : readNumber c = .error e) : c.Marks e.span := by
  unfold readNumber at h
  split at h
  · rename_i hnil
    rw [hnil] at hhead
    cases hhead
  · rename_i first' rest hrest
    rw [hrest, List.head?_cons, Option.some_inj] at hhead
    subst hhead
    simp only at h
    split at h
    · cases h
    · cases h
      have hsize : first'.utf8Size = 1 := by
        rcases hfirst with rfl | hdigit
        · decide
        · exact utf8Size_of_isDigit hdigit
      have hcovers : c.Covers (first' :: rest.takeWhile isNumberChar)
          ⟨rest.dropWhile isNumberChar,
            c.offset + byteLength (first' :: rest.takeWhile isNumberChar)⟩ := by
        refine ⟨?_, rfl⟩
        rw [hrest, List.cons_append, List.takeWhile_append_dropWhile]
      exact hcovers.marks_token hsize

theorem marks_readString {c : Cursor} {rest : List Char} {e : SyntaxError}
    (hrest : c.rest = '"' :: rest) (h : readString c.offset ⟨rest, c.offset + 1⟩ = .error e) :
    c.Marks e.span := by
  have hquote := isMark_quote.covers hrest
  cases failsString_of_readString h with
  | @bad token left error hscan =>
    have htoken : Cursor.Covers ⟨rest, c.offset + 1⟩ token ⟨left, _⟩ :=
      ⟨scanQuoted_sound hscan, rfl⟩
    exact (hquote.trans htoken).marks_token isMark_quote.size
  | @control front hscan =>
    obtain ⟨x, left, hfront, hx, -⟩ := scanQuoted_control hscan
    have hupto : Cursor.Covers ⟨rest, c.offset + 1⟩ front ⟨x :: left, _⟩ := ⟨hfront, rfl⟩
    refine (hquote.trans hupto).marks ?_
    have hsize := utf8Size_of_toNat_lt (Nat.lt_trans hx (by decide))
    have hnext : Cursor.Covers ⟨x :: left, c.offset + 1 + byteLength front⟩ [x]
        ⟨left, c.offset + 1 + byteLength front + 1⟩ := by
      refine ⟨rfl, ?_⟩
      rw [byteLength_cons, hsize]
      rfl
    exact hnext.marks_token hsize
  | unterminated =>
    have hall : Cursor.Covers ⟨rest, c.offset + 1⟩ rest ⟨[], _⟩ := ⟨(List.append_nil _).symm, rfl⟩
    exact (hquote.trans hall).marks_token isMark_quote.size

/-! ## 3. Readers -/

/-- **All errors of the reader mark the text.** -/
def Marking {α : Type} (reader : Reader α) : Prop :=
  ∀ ⦃c : Cursor⦄ ⦃e : SyntaxError⦄, reader c = .error e → c.Marks e.span

section Parts

variable {α : Type} {closing : Char} {due : SyntaxCause} {part : Reader α} {rule : Production α}
  (hfollows : Follows part rule) (hpart : Marking part)
include hfollows hpart

theorem marking_readParts : Marking (readParts closing due part) := by
  intro c e h
  -- on the text left: each comma leaves less of it
  induction hn : c.rest.length using Nat.strongRecOn generalizing c with
  | ind n ih =>
    obtain ⟨before, -, hc⟩ := c.skipBlanks_sound
    rcases readParts_eq_error_iff.mp h with hfail | ⟨first, next, hfirst, h⟩
    · exact hc.marks (hpart hfail)
    · obtain ⟨text, htext, -⟩ := hfollows.sound hfirst
      obtain ⟨after, -, hnext⟩ := next.skipBlanks_sound
      have hupto := hc.trans (htext.trans hnext)
      rcases h with ⟨-, -, rfl⟩ | ⟨rest, hrest, hmore⟩
      · exact hupto.marks (next.skipBlanks.marks_fail due)
      · have hcomma := hupto.trans (isMark_comma.covers hrest)
        have hless := hcomma.shorter (by simp)
        exact hcomma.marks (ih _ (hn ▸ hless) hmore rfl)

theorem marking_readBetween : Marking (readBetween closing due part) := by
  intro c e h
  exact marking_readParts hfollows hpart (readBetween_eq_error_iff.mp h).2

end Parts

theorem marking_readMember {element : Reader Node} (helement : Marking element) :
    Marking (readMember element) := by
  intro c e h
  rcases readMember_eq_error_iff.mp h with ⟨-, rfl⟩ | ⟨rest, hrest, h⟩
  · exact c.marks_fail _
  · rcases h with hkey | ⟨key, afterKey, hkey, h⟩
    · exact marks_readString hrest hkey
    · obtain ⟨token, htoken, -⟩ := (follows_readString _).sound hkey
      obtain ⟨before, -, hskip⟩ := afterKey.skipBlanks_sound
      have hupto := (isMark_quote.covers hrest).trans (htoken.trans hskip)
      rcases h with ⟨-, rfl⟩ | ⟨rest', hmark, hvalue⟩
      · exact hupto.marks (afterKey.skipBlanks.marks_fail _)
      · obtain ⟨after, -, hskip'⟩ :=
          Cursor.skipBlanks_sound ⟨rest', afterKey.skipBlanks.offset + 1⟩
        exact (hupto.trans ((isMark_colon.covers hmark).trans hskip')).marks (helement hvalue)

theorem marks_of_failsValue {budget : Nat} {c : Cursor} {e : SyntaxError}
    (ih : ∀ b, budget = b + 1 → Marking (readValue b)) (h : FailsValue budget c e) :
    c.Marks e.span := by
  cases h with
  | empty | deep | stray => exact c.marks_fail _
  | @object b _ rest _ hrest hread =>
    exact (isMark_openBrace.covers hrest).marks (marking_readBetween
      (follows_member (follows_readValue b)) (marking_readMember (ih b rfl)) hread)
  | @array b _ rest _ hrest hread =>
    exact (isMark_openBracket.covers hrest).marks
      (marking_readBetween (follows_readValue b) (ih b rfl) hread)
  | string hrest hread => exact marks_readString hrest hread
  | true _ hread | false _ hread | null _ hread => exact marks_readWord hread
  | number hhead hfirst hread => exact marks_readNumber hhead hfirst hread

theorem marking_readValue (budget : Nat) : Marking (readValue budget) := by
  induction budget with
  | zero =>
    intro c e h
    refine marks_of_failsValue (fun b heq => ?_) (failsValue_of_readValue h)
    omega
  | succ b hb =>
    intro c e h
    refine marks_of_failsValue (fun b' heq => ?_) (failsValue_of_readValue h)
    cases heq
    exact hb

theorem marks_of_read {source : List Char} {e : SyntaxError} (h : Node.read source = .error e) :
    Cursor.Marks ⟨source, 0⟩ e.span := by
  obtain ⟨before, -, hc⟩ := Cursor.skipBlanks_sound ⟨source, 0⟩
  rcases read_eq_error_iff.mp h with hfail | ⟨node, last, hread, -, rfl⟩
  · exact hc.marks (marking_readValue depthLimit hfail)
  · obtain ⟨text, htext, -⟩ := (follows_readValue depthLimit).sound hread
    obtain ⟨after, -, hlast⟩ := last.skipBlanks_sound
    exact (hc.trans (htext.trans hlast)).marks (last.skipBlanks.marks_fail _)

/-! ## 4. Remarks about a tree -/

theorem Grammar.IsValue.head_size {text : List Char} {start : Nat} {node : Node}
    (h : IsValue text start node) : ∃ c rest, text = c :: rest ∧ c.utf8Size = 1 := by
  cases h with
  | number htoken =>
    obtain ⟨c, rest, rfl, rfl | hdigit⟩ := htoken.head
    · exact ⟨'-', rest, rfl, by decide⟩
    · exact ⟨c, rest, rfl, utf8Size_of_isDigit hdigit⟩
  | _ => exact ⟨_, _, rfl, by decide⟩

theorem Grammar.MemberText.head_size {rule : Production Node} {text : List Char} {start : Nat}
    {m : Member Node} (h : MemberText rule text start m) :
    ∃ c rest, text = c :: rest ∧ c.utf8Size = 1 := by
  cases h
  exact ⟨_, _, rfl, by decide⟩

/-- The span of a part of the text that begins with a character of one byte. -/
def Span.CoversPart (source : List Char) (span : Span) : Prop :=
  ∃ front c rest back, source = front ++ (c :: rest ++ back) ∧ c.utf8Size = 1 ∧
    span = covering (byteLength front) (c :: rest)

/-- What a remark about the tree of a document points at is a part of the text. -/
theorem coversPart_of_shows {source : String} {root : Node} {d : Diagnostic}
    (h : Node.parse source = .ok root) (hd : root.Shows d) : d.span.CoversPart source.toList := by
  obtain ⟨hdocument, -⟩ := isDocument_of_read h
  obtain ⟨part, hpart, hspan⟩ := hd.place
  generalize source.toList = text at hdocument ⊢
  obtain @⟨before, text, after, _, -, hvalue, -⟩ := hdocument
  obtain ⟨⟨front, inner, back, rfl, hinner⟩, -⟩ := hvalue.exists_part hpart
  rw [← byteLength_append] at hinner
  rcases hspan with hspan | ⟨m, hm, hspan⟩
  · obtain ⟨c, rest, rfl, hc⟩ := hinner.head_size
    refine ⟨before ++ front, c, rest, back ++ after, by simp, hc, ?_⟩
    rw [hspan, hinner.span_eq]
  · cases part with
    | object members span =>
      obtain ⟨between, rfl, hbetween⟩ := hinner.members
      obtain ⟨front', memberText, back', rfl, hmember⟩ := hbetween.exists_of_mem hm
      obtain ⟨c, rest, rfl, hc⟩ := hmember.head_size
      refine ⟨before ++ (front ++ '\x7b' :: front'), c, rest, back' ++ (back ++ after), by simp,
        hc, ?_⟩
      have hoffset : byteLength (before ++ (front ++ '\x7b' :: front')) =
          byteLength (before ++ front) + 1 + byteLength front' := by
        simp only [byteLength_append, byteLength_cons, isMark_openBrace.size]
        omega
      rw [hspan, hmember.span_eq, hoffset]
    | array | string | number | boolean | null => exact absurd hm List.not_mem_nil

/-! ## 5. Columns -/

/-- The character at the start of the span takes several bytes. -/
def Span.AtWideCharacter (source : List Char) (span : Span) : Prop :=
  ∃ front x more, source = front ++ x :: more ∧ byteLength front = span.start ∧ 1 < x.utf8Size

theorem Span.CoversPart.boundary {source : List Char} {span : Span} (h : span.CoversPart source) :
    Boundary source span.start ∧ Boundary source span.stop := by
  obtain ⟨front, c, rest, back, rfl, -, rfl⟩ := h
  refine ⟨⟨front, _, rfl, rfl⟩, ⟨front ++ c :: rest, back, by simp, ?_⟩⟩
  rw [byteLength_append, covering_stop]

/-- Where the span of a syntax error ends. -/
theorem Cursor.Marks.ends {source : List Char} {span : Span}
    (h : Cursor.Marks ⟨source, 0⟩ span) :
    Boundary source span.start ∧
      ((¬ span.AtWideCharacter source ∧ Boundary source span.stop) ∨
        (span.AtWideCharacter source ∧ span.stop = span.start + 1)) := by
  obtain ⟨eaten, left, hsource, hstart, hreaches⟩ := h
  simp only [Nat.zero_add] at hsource hstart
  subst hsource
  refine ⟨⟨eaten, left, rfl, hstart.symm⟩, ?_⟩
  cases hreaches with
  | @part part more hhead hstop =>
    refine .inl ⟨fun hwide => ?_, eaten ++ part, more, by simp, ?_⟩
    · obtain ⟨front, x, more', hsplit, hlength, hx⟩ := hwide
      obtain ⟨-, hleft⟩ := append_inj_of_byteLength hsplit (hstart.symm.trans hlength.symm)
      have hone := hhead x (by rw [hleft]; rfl)
      omega
    · rw [hstop, hstart, byteLength_append]
  | @byte x more hx hstop => exact .inr ⟨⟨eaten, x, more, rfl, hstart.symm, hx⟩, hstop⟩

/-- **Columns count characters, but for the end of a syntax error at a character of several bytes.**
    The start of every diagnostic stands between characters. So does the end of all of them, unless
    the text is no document and the error is met at such a character; then the error is the only
    diagnostic, it ends after one byte of the character, and the column of its end counts bytes. -/
theorem columns_count_characters_iff (engines : Engines) (source : String) :
    (∀ d ∈ check engines source, Position.CountsCharacters source.toList d.span.start) ∧
      ((∀ d ∈ check engines source, Position.CountsCharacters source.toList d.span.stop) ↔
        ∀ e, Node.parse source = .error e → ¬ e.span.AtWideCharacter source.toList) ∧
      ∀ e front x more, Node.parse source = .error e → source.toList = front ++ x :: more →
        byteLength front = e.span.start → 1 < x.utf8Size →
          check engines source = [.ofSyntaxError e] ∧ e.span.stop = e.span.start + 1 ∧
            Position.ofOffset source.toList e.span.stop =
              ⟨front.count '\n' + 1, byteLength (lastLine front) + 2⟩ := by
  simp only [Position.countsCharacters_iff]
  cases hparse : Node.parse source with
  | ok root =>
    have hcovers : ∀ d ∈ check engines source, d.span.CoversPart source.toList := by
      intro d hd
      rw [check, analyze, hparse] at hd
      exact coversPart_of_shows hparse
        ((Schema.ordered_ofNode root (tidy_of_parse hparse)).shown d hd)
    refine ⟨fun d hd => (hcovers d hd).boundary.1, ?_, fun e _ _ _ he => by cases he⟩
    exact iff_of_true (fun d hd => (hcovers d hd).boundary.2) fun e he => by cases he
  | error e =>
    have hcheck : check engines source = [.ofSyntaxError e] := by
      rw [check, analyze, hparse]
      rfl
    obtain ⟨hstart, hstop⟩ := (marks_of_read hparse).ends
    simp only [hcheck, List.forall_mem_singleton, Except.error.injEq, forall_eq']
    refine ⟨hstart, ?_, fun e' front x more he hsource hlength hx => ?_⟩
    · rcases hstop with ⟨hnarrow, hboundary⟩ | ⟨hwide, hshort⟩
      · exact iff_of_true hboundary hnarrow
      · refine iff_of_false ?_ fun hnarrow => hnarrow hwide
        obtain ⟨front, x, more, hsource, hlength, hx⟩ := hwide
        show ¬ Boundary source.toList e.span.stop
        rw [hshort, ← hlength, hsource]
        exact not_boundary_inside front more Nat.one_pos hx
    · subst he
      have hwide : e.span.AtWideCharacter source.toList := ⟨front, x, more, hsource, hlength, hx⟩
      have hshort : e.span.stop = e.span.start + 1 := by
        rcases hstop with ⟨hnarrow, -⟩ | ⟨-, hshort⟩
        · exact absurd hwide hnarrow
        · exact hshort
      refine ⟨rfl, hshort, ?_⟩
      rw [hshort, ← hlength, hsource]
      exact Position.ofOffset_inside front more Nat.one_pos hx

/-- A letter with an accent inside of a string, and one after it. -/
def strayAccent : String := "\"é\"é"

theorem parse_strayAccent :
    Node.parse strayAccent = .error ⟨.trailingCharacters, ⟨4, 5⟩⟩ := by
  have hbody := stringBody_of_all_plain "é" (by decide)
  have hcovers : Cursor.Covers ⟨strayAccent.toList, 0⟩ ['"', 'é', '"'] ⟨['é'], 4⟩ := ⟨rfl, rfl⟩
  have hread : Reads (readValue depthLimit) ⟨strayAccent.toList, 0⟩ (.string "é" ⟨0, 4⟩)
      ⟨['é'], 4⟩ :=
    (follows_readValue depthLimit).complete hcovers ⟨.string hbody, Nat.zero_le _⟩
      (stops_cons.mpr (by decide))
  exact read_eq_error_iff.mpr (.inr ⟨_, _, hread, by decide, rfl⟩)

/-- The error about the second letter ends inside of it; the column of its end is greater than that
    of the end of the text. -/
theorem split_character :
    check .standard strayAccent = [⟨.fatal, .parse, .grammar,
        "unexpected trailing characters after JSON value", ⟨4, 5⟩⟩] ∧
      ¬ Position.CountsCharacters strayAccent.toList 5 ∧
      Position.ofOffset strayAccent.toList 4 = ⟨1, 4⟩ ∧
      Position.ofOffset strayAccent.toList 5 = ⟨1, 6⟩ ∧
      Position.ofOffset strayAccent.toList 6 = ⟨1, 5⟩ := by
  refine ⟨?_, ?_, by decide, by decide, by decide⟩
  · rw [check, analyze, parse_strayAccent]
    rfl
  · rw [Position.countsCharacters_iff]
    exact not_boundary_inside ['"', 'é', '"'] [] Nat.one_pos (by decide)

end SchemaCompiler
