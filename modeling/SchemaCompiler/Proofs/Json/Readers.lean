/-
  File:      SchemaCompiler/Proofs/Json/Readers.lean
  Subject:   Readers and the rules they read, for scalars and for parts between brackets.

  `Follows reader rule` says that a reader does what a rule of the grammar says, both ways: what it
  reads is derived, and what is derived it reads, if no character of a number comes next. The
  readers of parts and of members take another reader; their lemmas take the rule that one follows.
-/
import SchemaCompiler.Proofs.Json.Numerals
import SchemaCompiler.Proofs.Json.Strings

namespace SchemaCompiler

open Grammar

/-! ## 1. Cursors -/

/-- Between the cursors `c` and `d` stands `text`. -/
def Cursor.Covers (c : Cursor) (text : List Char) (d : Cursor) : Prop :=
  c.rest = text ++ d.rest ∧ d.offset = c.offset + byteLength text

namespace Cursor

theorem Covers.trans {c d e : Cursor} {text more : List Char} (h : c.Covers text d)
    (h' : d.Covers more e) : c.Covers (text ++ more) e := by
  obtain ⟨hrest, hoffset⟩ := h
  obtain ⟨hrest', hoffset'⟩ := h'
  refine ⟨by rw [hrest, hrest', List.append_assoc], ?_⟩
  rw [hoffset', hoffset, byteLength_append, Nat.add_assoc]

/-- A text that splits has a cursor in it. -/
theorem Covers.split {c e : Cursor} {text more : List Char} (h : c.Covers (text ++ more) e) :
    ∃ d, c.Covers text d ∧ d.Covers more e := by
  obtain ⟨hrest, hoffset⟩ := h
  refine ⟨⟨more ++ e.rest, c.offset + byteLength text⟩, ⟨?_, rfl⟩, rfl, ?_⟩
  · rw [hrest, List.append_assoc]
  · rw [hoffset, byteLength_append, Nat.add_assoc]

theorem Covers.shorter {c d : Cursor} {text : List Char} (h : c.Covers text d) (hne : text ≠ []) :
    d.rest.length < c.rest.length := by
  have hlen := List.length_pos_iff.mpr hne
  rw [h.1, List.length_append]
  omega

theorem isBlank_iff {c : Char} : isBlank c = true ↔ Blank c := by
  simp [isBlank, Blank, or_assoc]

theorem isBlank_of_blanks {blanks : List Char} (h : Blanks blanks) :
    ∀ c ∈ blanks, isBlank c = true :=
  fun c hc => isBlank_iff.mpr (h c hc)

theorem byteLength_blanks {blanks : List Char} (h : Blanks blanks) :
    byteLength blanks = blanks.length := by
  induction blanks with
  | nil => rfl
  | cons c blanks ih =>
    obtain ⟨hc, hblanks⟩ := List.forall_mem_cons.mp h
    have hsize : c.utf8Size = 1 := by rcases hc with rfl | rfl | rfl | rfl <;> rfl
    rw [byteLength_cons, hsize, ih hblanks, List.length_cons, Nat.add_comm]

theorem skipBlanks_sound (c : Cursor) : ∃ blanks, Blanks blanks ∧ c.Covers blanks c.skipBlanks := by
  have hblanks : Blanks (c.rest.takeWhile isBlank) := fun b hb =>
    isBlank_iff.mp (List.mem_takeWhile_imp hb)
  refine ⟨c.rest.takeWhile isBlank, hblanks, List.takeWhile_append_dropWhile.symm, ?_⟩
  rw [byteLength_blanks hblanks]
  rfl

theorem skipBlanks_complete {c d : Cursor} {blanks : List Char} (h : c.Covers blanks d)
    (hblanks : Blanks blanks) (hstop : Stops isBlank d.rest) : c.skipBlanks = d := by
  obtain ⟨hrest, hoffset⟩ := h
  unfold skipBlanks
  rw [hrest, takeWhile_run (isBlank_of_blanks hblanks) hstop,
    dropWhile_run (isBlank_of_blanks hblanks) hstop, ← byteLength_blanks hblanks, ← hoffset]

theorem skipBlanks_eq {c d : Cursor} {blanks rest : List Char} {first : Char}
    (h : c.Covers blanks d) (hblanks : Blanks blanks) (hrest : d.rest = first :: rest)
    (hfirst : isBlank first = false) : c.skipBlanks = d := by
  refine skipBlanks_complete h hblanks ?_
  rw [hrest]
  exact stops_cons.mpr hfirst

end Cursor

/-! ## 2. Readers and rules -/

/-- The reader gives `a` at the cursor `c` and goes on at `d`. -/
def Reads {α : Type} (reader : Reader α) (c : Cursor) (a : α) (d : Cursor) : Prop :=
  ∃ shorter, reader c = .ok (a, ⟨d, shorter⟩)

/-- A rule of the grammar: the texts it derives at an offset, and what they denote. -/
abbrev Production (α : Type) : Type := List Char → Nat → α → Prop

/-- **The reader reads what the rule derives.** -/
structure Follows {α : Type} (reader : Reader α) (rule : Production α) : Prop where
  sound {c d : Cursor} {a : α} : Reads reader c a d → ∃ text, c.Covers text d ∧ rule text c.offset a
  complete {c d : Cursor} {a : α} {text : List Char} :
    c.Covers text d → rule text c.offset a → Stops isNumberChar d.rest → Reads reader c a d

/-- Every text that a rule derives begins with a character of some kind. -/
def Begins {α : Type} (rule : Production α) (p : Char → Prop) : Prop :=
  ∀ text start a, rule text start a → ∃ c rest, text = c :: rest ∧ p c

/-! ## 3. Scalars -/

theorem byteLength_word (word : Word) : byteLength word.name.toList = word.name.toList.length := by
  cases word <;> decide

/-- A word is read whatever follows it. -/
theorem readWord_complete {word : Word} {node : Span → Node} {c d : Cursor} {a : Node}
    {text : List Char} (hcovers : c.Covers text d) (htext : text = word.name.toList)
    (ha : a = node (covering c.offset text)) : Reads (readWord word node) c a d := by
  obtain ⟨hrest, hoffset⟩ := hcovers
  subst htext ha
  have hword : word.name.toList.isPrefixOf c.rest ∧ word.name.toList ≠ [] :=
    ⟨List.isPrefixOf_iff_prefix.mpr ⟨d.rest, hrest.symm⟩, by cases word <;> decide⟩
  rw [byteLength_word] at hoffset
  have hd : d = ⟨c.rest.drop word.name.toList.length, c.offset + word.name.toList.length⟩ := by
    rw [hrest, List.drop_left, ← hoffset]
  subst hd
  unfold Reads readWord
  rw [dif_pos hword, covering, byteLength_word]
  exact ⟨_, rfl⟩

theorem follows_readWord (word : Word) (node : Span → Node) :
    Follows (readWord word node)
      fun text start n => text = word.name.toList ∧ n = node (covering start text) where
  sound := by
    intro c d a hread
    obtain ⟨shorter, h⟩ := hread
    simp only [readWord] at h
    split at h
    · rename_i hword
      simp only [Except.ok.injEq, Prod.mk.injEq, Subtype.mk.injEq] at h
      obtain ⟨rfl, rfl⟩ := h
      obtain ⟨rest, hrest⟩ := List.isPrefixOf_iff_prefix.mp hword.1
      refine ⟨word.name.toList, ⟨?_, ?_⟩, rfl, ?_⟩
      · rw [← hrest, List.drop_left]
      · rw [byteLength_word]
      · rw [covering, byteLength_word]
        rfl
    · cases h
  complete := fun hcovers hword _ => readWord_complete hcovers hword.1 hword.2

theorem follows_readNumber :
    Follows readNumber
      fun text start node =>
        ∃ n, NumberToken text n ∧ node = .number n.value (covering start text) where
  sound := by
    intro c d a hread
    obtain ⟨shorter, h⟩ := hread
    unfold readNumber at h
    split at h
    · cases h
    · rename_i first rest hrest
      simp only at h
      split at h
      · rename_i n hn
        simp only [Except.ok.injEq, Prod.mk.injEq, Subtype.mk.injEq] at h
        obtain ⟨rfl, rfl⟩ := h
        refine ⟨_, ⟨?_, rfl⟩, n, Numeral.ofToken?_eq_some_iff.mp hn, rfl⟩
        rw [hrest, List.cons_append, List.takeWhile_append_dropWhile]
      · cases h
  complete := by
    intro c d a text hcovers hnumber hstop
    obtain ⟨crest, offset⟩ := c
    obtain ⟨drest, stop⟩ := d
    obtain ⟨n, hn, rfl⟩ := hnumber
    obtain ⟨hrest, hoffset⟩ := id hcovers
    simp only at hrest hoffset hstop
    subst hrest hoffset
    obtain ⟨first, rest, rfl, -⟩ := hn.head
    obtain ⟨-, hchars⟩ := List.forall_mem_cons.mp hn.isNumberChar
    unfold Reads readNumber
    split
    · rename_i e
      cases e
    · rename_i e
      simp only [List.cons_append, List.cons.injEq] at e
      obtain ⟨rfl, rfl⟩ := e
      refine ⟨hcovers.shorter (List.cons_ne_nil _ _), ?_⟩
      simp only [takeWhile_run hchars hstop, dropWhile_run hchars hstop,
        Numeral.ofToken?_eq_some_iff.mpr hn]
      rfl

/-- A string is read whatever follows its closing quote. -/
theorem readString_complete (start : Nat) {c d : Cursor} {body decoded : List Char}
    (hcovers : c.Covers (body ++ ['"']) d) (hbody : StringBody body decoded) :
    Reads (readString start) c
      (String.ofList decoded, ⟨start, c.offset + byteLength (body ++ ['"'])⟩) d := by
  obtain ⟨crest, offset⟩ := c
  obtain ⟨drest, stop⟩ := d
  obtain ⟨hrest, hoffset⟩ := id hcovers
  simp only [List.append_assoc, List.singleton_append] at hrest hoffset
  subst hrest hoffset
  have hscan := scanQuoted_complete hbody drest
  unfold Reads readString
  split
  · rename_i token rest e
    rw [hscan, QuotedScan.closed.injEq] at e
    obtain ⟨rfl, rfl⟩ := e
    exact ⟨hcovers.shorter (by simp), by simp only [unquote_complete hbody]⟩
  · rename_i e
    rw [hscan] at e
    cases e
  · rename_i e
    rw [hscan] at e
    cases e

/-- A string after its opening quote, which stands at `start`. -/
theorem follows_readString (start : Nat) :
    Follows (readString start) fun text offset a =>
      ∃ body decoded, text = body ++ ['"'] ∧ StringBody body decoded ∧
        a = (String.ofList decoded, ⟨start, offset + byteLength text⟩) where
  sound := by
    intro c d a hread
    obtain ⟨shorter, h⟩ := hread
    unfold readString at h
    split at h
    · rename_i token rest hscan
      simp only at h
      split at h
      · rename_i decoded after hdecode
        simp only [Except.ok.injEq, Prod.mk.injEq, Subtype.mk.injEq] at h
        obtain ⟨rfl, rfl⟩ := h
        obtain ⟨body, rfl, hbody⟩ := unquote_eq_ok_iff.mp hdecode
        have hrest := scanQuoted_sound hscan
        -- both passes stop at the same quote, so nothing of the token is left after decoding
        rw [hrest, List.append_assoc, List.cons_append, scanQuoted_complete hbody,
          QuotedScan.closed.injEq, List.append_cancel_left_eq, List.cons.injEq] at hscan
        obtain ⟨⟨-, hafter⟩, -⟩ := hscan
        subst hafter
        exact ⟨body ++ ['"'], ⟨hrest, rfl⟩, body, decoded, rfl, hbody, rfl⟩
      · cases h
    · cases h
    · cases h
  complete := by
    intro c d a text hcovers hstring _
    obtain ⟨body, decoded, rfl, hbody, rfl⟩ := hstring
    exact readString_complete start hcovers hbody

/-! ## 4. Parts -/

section Parts

variable {α : Type} {closing : Char} {due : SyntaxCause} {part : Reader α} {rule : Production α}

theorem readParts_eq_ok_iff {c d : Cursor} {parts : List α} :
    Reads (readParts closing due part) c parts d ↔
      ∃ first next mark rest, Reads part c.skipBlanks first next ∧
        next.skipBlanks.rest = mark :: rest ∧
        ((mark = ',' ∧ ∃ more, parts = first :: more ∧
            Reads (readParts closing due part) ⟨rest, next.skipBlanks.offset + 1⟩ more d) ∨
          (mark ≠ ',' ∧ mark = closing ∧ parts = [first] ∧
            d = ⟨rest, next.skipBlanks.offset + 1⟩)) := by
  constructor
  · intro hread
    obtain ⟨shorter, h⟩ := hread
    rw [readParts] at h
    split at h
    · cases h
    · rename_i first next hnext hfirst
      split at h
      · cases h
      · rename_i mark rest hmark
        refine ⟨first, next, mark, rest, ⟨hnext, hfirst⟩, hmark, ?_⟩
        simp only at h
        split at h
        · rename_i hcomma
          split at h
          · cases h
          · rename_i more last hlast hmore
            simp only [Except.ok.injEq, Prod.mk.injEq, Subtype.mk.injEq] at h
            obtain ⟨rfl, rfl⟩ := h
            exact .inl ⟨hcomma, more, rfl, hlast, hmore⟩
        · rename_i hcomma
          split at h
          · rename_i hclosing
            simp only [Except.ok.injEq, Prod.mk.injEq, Subtype.mk.injEq] at h
            obtain ⟨rfl, rfl⟩ := h
            exact .inr ⟨hcomma, hclosing, rfl, rfl⟩
          · cases h
  · intro hread
    obtain ⟨first, next, mark, rest, ⟨hnext, hfirst⟩, hmark, h⟩ := hread
    have bound : rest.length + 1 < c.rest.length := by
      have h1 := c.skipBlanks_length
      have h2 := next.skipBlanks_length
      rw [hmark, List.length_cons] at h2
      omega
    unfold Reads
    rw [readParts]
    simp only [hfirst]
    split
    · rename_i e
      rw [hmark] at e
      cases e
    · rename_i e
      rw [hmark] at e
      cases e
      rcases h with ⟨rfl, more, rfl, hlast, hmore⟩ | ⟨hcomma, rfl, rfl, rfl⟩
      · simp only at hlast
        refine ⟨by omega, ?_⟩
        simp only [↓reduceIte, hmore]
      · refine ⟨by simp only; omega, ?_⟩
        simp only [hcomma, ↓reduceIte]

/-- What every part is read up to: a mark of one byte that is neither blank nor a character of a
    number. -/
structure IsMark (c : Char) : Prop where
  size : c.utf8Size = 1
  blank : Cursor.isBlank c = false
  number : isNumberChar c = false

theorem isMark_comma : IsMark ',' := ⟨by decide, by decide, by decide⟩

theorem IsMark.covers {mark : Char} (h : IsMark mark) {c : Cursor} {rest : List Char}
    (hrest : c.rest = mark :: rest) : c.Covers [mark] ⟨rest, c.offset + 1⟩ :=
  ⟨hrest, by rw [byteLength_cons, h.size]; rfl⟩

theorem IsMark.eq_of_covers {mark : Char} (h : IsMark mark) {c d : Cursor}
    (hcovers : c.Covers [mark] d) : d = ⟨d.rest, c.offset + 1⟩ := by
  obtain ⟨-, hoffset⟩ := hcovers
  rw [byteLength_cons, h.size, byteLength_nil] at hoffset
  rw [← hoffset]

theorem IsMark.covers_cons_iff {mark : Char} (h : IsMark mark) {c d : Cursor} {text : List Char} :
    c.Covers (mark :: text) d ↔
      ∃ rest, c.rest = mark :: rest ∧ Cursor.Covers ⟨rest, c.offset + 1⟩ text d := by
  constructor
  · intro hcovers
    obtain ⟨hrest, hoffset⟩ := hcovers
    rw [byteLength_cons, h.size, ← Nat.add_assoc] at hoffset
    exact ⟨text ++ d.rest, hrest, rfl, hoffset⟩
  · intro hmark
    obtain ⟨rest, hrest, htext⟩ := hmark
    exact (h.covers hrest).trans htext

/-- Blanks end a number. -/
theorem stops_blanks {blanks rest : List Char} (hblanks : Blanks blanks)
    (hrest : Stops isNumberChar rest) : Stops isNumberChar (blanks ++ rest) := by
  cases blanks with
  | nil => exact hrest
  | cons b blanks =>
    rcases hblanks b List.mem_cons_self with rfl | rfl | rfl | rfl <;>
      exact stops_cons.mpr (by decide)

theorem stops_of_begins {p : Char → Bool} (hbegins : Begins rule fun c => p c = false)
    {text rest : List Char} {start : Nat} {a : α} (h : rule text start a) :
    Stops p (text ++ rest) := by
  obtain ⟨c, tail, rfl, hc⟩ := hbegins text start a h
  exact stops_cons.mpr hc

theorem readParts_sound (hpart : Follows part rule) (hclosing : IsMark closing) {c d : Cursor}
    {parts : List α} (h : Reads (readParts closing due part) c parts d) :
    ∃ body, c.Covers (body ++ [closing]) d ∧ Parts rule body c.offset parts := by
  -- on the text left: each comma leaves less of it
  induction hn : c.rest.length using Nat.strongRecOn generalizing c parts with
  | ind n ih =>
    obtain ⟨first, next, mark, rest, hfirst, hmark, h⟩ := readParts_eq_ok_iff.mp h
    obtain ⟨before, hbefore, hc⟩ := c.skipBlanks_sound
    obtain ⟨text, htext, hrule⟩ := hpart.sound hfirst
    obtain ⟨after, hafter, hnext⟩ := next.skipBlanks_sound
    have hupto := hc.trans (htext.trans hnext)
    rw [hc.2] at hrule
    rcases h with ⟨rfl, more, rfl, hmore⟩ | ⟨-, rfl, rfl, rfl⟩
    · have hcomma := hupto.trans (isMark_comma.covers hmark)
      have hless := hcomma.shorter (by simp)
      obtain ⟨body, hbody, hparts⟩ := ih _ (hn ▸ hless) hmore rfl
      rw [hcomma.2] at hparts
      refine ⟨before ++ (text ++ (after ++ ',' :: body)), ?_, .more hbefore hrule hafter ?_⟩
      · simpa using hcomma.trans hbody
      · simpa using hparts
    · refine ⟨before ++ (text ++ after), ?_, .last hbefore hrule hafter⟩
      exact hupto.trans (hclosing.covers hmark)

/-- A derived part between blanks is read up to the mark after it. -/
theorem reads_part (hpart : Follows part rule)
    (hbegins : Begins rule fun c => Cursor.isBlank c = false) {mark : Char} (hmark : IsMark mark)
    {before text after rest : List Char} {c d : Cursor} {a : α} (hbefore : Blanks before)
    (hrule : rule text (c.offset + byteLength before) a) (hafter : Blanks after)
    (hcovers : c.Covers (before ++ (text ++ after)) d) (hrest : d.rest = mark :: rest) :
    ∃ next, Reads part c.skipBlanks a next ∧ next.skipBlanks = d := by
  obtain ⟨c', hc, hcovers⟩ := hcovers.split
  obtain ⟨next, htext, hnext⟩ := hcovers.split
  have hskip : c.skipBlanks = c' := by
    refine Cursor.skipBlanks_complete hc hbefore ?_
    rw [htext.1]
    exact stops_of_begins hbegins hrule
  refine ⟨next, ?_, Cursor.skipBlanks_eq hnext hafter hrest hmark.blank⟩
  rw [hskip]
  rw [← hc.2] at hrule
  refine hpart.complete htext hrule ?_
  rw [hnext.1, hrest]
  exact stops_blanks hafter (stops_cons.mpr hmark.number)

theorem readParts_complete (hpart : Follows part rule) (hclosing : IsMark closing)
    (hcomma : closing ≠ ',') (hbegins : Begins rule fun c => Cursor.isBlank c = false)
    {body : List Char} {start : Nat} {parts : List α} (h : Parts rule body start parts)
    {c d : Cursor} (hstart : c.offset = start) (hcovers : c.Covers (body ++ [closing]) d) :
    Reads (readParts closing due part) c parts d := by
  induction h generalizing c with
  | @last start before text after a hbefore hrule hafter =>
    subst hstart
    obtain ⟨c', hupto, hlast⟩ := hcovers.split
    obtain ⟨next, hreads, hnext⟩ :=
      reads_part hpart hbegins hclosing hbefore hrule hafter hupto hlast.1
    refine readParts_eq_ok_iff.mpr
      ⟨a, next, closing, d.rest, hreads, by rw [hnext]; exact hlast.1, .inr ?_⟩
    rw [hnext]
    exact ⟨hcomma, rfl, rfl, hclosing.eq_of_covers hlast⟩
  | @more start before text after rest a parts hbefore hrule hafter _ ih =>
    subst hstart
    have e : before ++ (text ++ (after ++ ',' :: rest)) ++ [closing] =
        before ++ (text ++ after) ++ ([','] ++ (rest ++ [closing])) := by simp
    rw [e] at hcovers
    obtain ⟨c', hupto, hcovers⟩ := hcovers.split
    obtain ⟨c'', hmark, hmore⟩ := hcovers.split
    obtain ⟨next, hreads, hnext⟩ :=
      reads_part hpart hbegins isMark_comma hbefore hrule hafter hupto hmark.1
    refine readParts_eq_ok_iff.mpr ⟨a, next, ',', c''.rest, hreads, by rw [hnext]; exact hmark.1,
      .inl ⟨rfl, parts, rfl, ?_⟩⟩
    rw [hnext, ← isMark_comma.eq_of_covers hmark]
    refine ih ?_ hmore
    rw [(hupto.trans hmark).2]
    simp only [List.append_assoc]

/-- What stands between brackets, its closing bracket included. -/
def BetweenText (rule : Production α) (closing : Char) : Production (List α) :=
  fun text start parts =>
  ∃ body, text = body ++ [closing] ∧ ((Blanks body ∧ parts = []) ∨ Parts rule body start parts)

theorem readBetween_eq_ok_iff {c d : Cursor} {parts : List α} :
    Reads (readBetween closing due part) c parts d ↔
      (parts = [] ∧ ∃ rest, c.skipBlanks.rest = closing :: rest ∧
          d = ⟨rest, c.skipBlanks.offset + 1⟩) ∨
        ((∀ rest, c.skipBlanks.rest ≠ closing :: rest) ∧
          Reads (readParts closing due part) c parts d) := by
  constructor
  · intro hread
    obtain ⟨shorter, h⟩ := hread
    unfold readBetween at h
    split at h
    · rename_i hnil
      exact .inr ⟨fun rest e => absurd (hnil.symm.trans e) (by simp), shorter, h⟩
    · rename_i mark rest hmark
      split at h
      · rename_i hclosing
        subst hclosing
        simp only [Except.ok.injEq, Prod.mk.injEq, Subtype.mk.injEq] at h
        obtain ⟨rfl, rfl⟩ := h
        exact .inl ⟨rfl, rest, hmark, rfl⟩
      · rename_i hclosing
        refine .inr ⟨fun rest' e => ?_, shorter, h⟩
        rw [hmark, List.cons.injEq] at e
        exact hclosing e.1
  · intro hcases
    rcases hcases with ⟨rfl, rest, hrest, rfl⟩ | ⟨hne, shorter, h⟩
    · have hless := c.skipBlanks_length
      rw [hrest, List.length_cons] at hless
      refine ⟨by simp only; omega, ?_⟩
      unfold readBetween
      split
      · rename_i e
        rw [hrest] at e
        cases e
      · rename_i e
        rw [hrest] at e
        cases e
        rw [if_pos rfl]
    · refine ⟨shorter, ?_⟩
      unfold readBetween
      split
      · exact h
      · rename_i mark rest hmark
        rw [if_neg fun e : mark = closing => hne rest (e ▸ hmark)]
        exact h

theorem Grammar.Parts.first {body : List Char} {start : Nat} {parts : List α}
    (h : Parts rule body start parts) :
    ∃ before text more a, body = before ++ (text ++ more) ∧ Blanks before ∧
      rule text (start + byteLength before) a := by
  cases h with
  | last hbefore hrule => exact ⟨_, _, _, _, rfl, hbefore, hrule⟩
  | more hbefore hrule => exact ⟨_, _, _, _, rfl, hbefore, hrule⟩

theorem Begins.mono {p q : Char → Prop} (h : Begins rule p) (hpq : ∀ c, p c → q c) :
    Begins rule q := by
  intro text start a hrule
  obtain ⟨c, rest, rfl, hc⟩ := h text start a hrule
  exact ⟨c, rest, rfl, hpq c hc⟩

/-- Whatever follows the closing bracket. -/
theorem readBetween_complete (hpart : Follows part rule) (hclosing : IsMark closing)
    (hcomma : closing ≠ ',')
    (hbegins : Begins rule fun c => Cursor.isBlank c = false ∧ c ≠ closing) {c d : Cursor}
    {parts : List α} {text : List Char} (hcovers : c.Covers text d)
    (hbetween : BetweenText rule closing text c.offset parts) :
    Reads (readBetween closing due part) c parts d := by
  rcases hbetween with ⟨body, rfl, ⟨hblanks, rfl⟩ | hparts⟩
  · obtain ⟨c', hc, hmark⟩ := hcovers.split
    have hskip := Cursor.skipBlanks_eq hc hblanks hmark.1 hclosing.blank
    refine readBetween_eq_ok_iff.mpr (.inl ⟨rfl, d.rest, by rw [hskip]; exact hmark.1, ?_⟩)
    rw [hskip]
    exact hclosing.eq_of_covers hmark
  · have hblank := hbegins.mono fun _ h => h.1
    have hreads : Reads (readParts closing due part) c parts d :=
      readParts_complete hpart hclosing hcomma hblank hparts rfl hcovers
    refine readBetween_eq_ok_iff.mpr (.inr ⟨fun rest e => ?_, hreads⟩)
    -- the first part does not begin with the closing bracket
    obtain ⟨before, part, more, a, rfl, hbefore, hrule⟩ := hparts.first
    rw [List.append_assoc] at hcovers
    obtain ⟨c', hc, hcovers⟩ := hcovers.split
    obtain ⟨first, tail, rfl, hfirst⟩ := hbegins _ _ _ hrule
    rw [Cursor.skipBlanks_eq hc hbefore hcovers.1 hfirst.1, hcovers.1] at e
    exact hfirst.2 (List.cons.inj e).1

/-- **What stands between brackets is read as it is derived.** -/
theorem follows_readBetween (hpart : Follows part rule) (hclosing : IsMark closing)
    (hcomma : closing ≠ ',')
    (hbegins : Begins rule fun c => Cursor.isBlank c = false ∧ c ≠ closing) :
    Follows (readBetween closing due part) (BetweenText rule closing) where
  sound := by
    intro c d parts h
    rcases readBetween_eq_ok_iff.mp h with ⟨rfl, rest, hrest, rfl⟩ | ⟨-, h⟩
    · obtain ⟨blanks, hblanks, hc⟩ := c.skipBlanks_sound
      exact ⟨blanks ++ [closing], hc.trans (hclosing.covers hrest), blanks, rfl,
        .inl ⟨hblanks, rfl⟩⟩
    · obtain ⟨body, hcovers, hparts⟩ := readParts_sound hpart hclosing h
      exact ⟨_, hcovers, body, rfl, .inr hparts⟩
  complete := fun hcovers hbetween _ =>
    readBetween_complete hpart hclosing hcomma hbegins hcovers hbetween

end Parts

/-! ## 5. Members -/

section Members

variable {element : Reader Node} {rule : Production Node}

/-- The mark that is due is there. -/
theorem readMark_eq_ok_iff {mark : Char} {due : SyntaxCause} {c d : Cursor} :
    Reads (readMark mark due) c () d ↔
      ∃ rest, c.rest = mark :: rest ∧ d = ⟨rest, c.offset + 1⟩ := by
  constructor
  · intro hread
    obtain ⟨shorter, h⟩ := hread
    unfold readMark at h
    split at h
    · cases h
    · rename_i first rest hrest
      split at h
      · rename_i hmark
        cases h
        exact ⟨rest, hmark ▸ hrest, rfl⟩
      · cases h
  · intro hmark
    obtain ⟨rest, hrest, rfl⟩ := hmark
    refine ⟨by rw [hrest]; exact Nat.lt_succ_self _, ?_⟩
    unfold readMark
    split
    · rename_i e
      rw [hrest] at e
      cases e
    · rename_i e
      rw [hrest] at e
      cases e
      rw [if_pos rfl]

/-- A member is read step by step: its name at a quote, a colon, its value. -/
theorem readMember_eq_ok_iff {c d : Cursor} {member : Member Node} :
    Reads (readMember element) c member d ↔
      ∃ rest key keySpan afterKey rest' value, c.rest = '"' :: rest ∧
        Reads (readString c.offset) ⟨rest, c.offset + 1⟩ (key, keySpan) afterKey ∧
        afterKey.skipBlanks.rest = ':' :: rest' ∧
        Reads element (Cursor.skipBlanks ⟨rest', afterKey.skipBlanks.offset + 1⟩) value d ∧
        member = ⟨key, keySpan, value, ⟨keySpan.start, value.span.stop⟩⟩ := by
  constructor
  · intro hread
    obtain ⟨shorter, h⟩ := hread
    unfold readMember at h
    split at h
    · cases h
    · rename_i body lessQuote hquote
      obtain ⟨rest, hrest, rfl⟩ := readMark_eq_ok_iff.mp ⟨lessQuote, hquote⟩
      split at h
      · cases h
      · rename_i key keySpan afterKey hless hkey
        split at h
        · cases h
        · rename_i afterColon lessColon hcolon
          obtain ⟨rest', hrest', rfl⟩ := readMark_eq_ok_iff.mp ⟨lessColon, hcolon⟩
          split at h
          · cases h
          · rename_i value last hlast hvalue
            cases h
            exact ⟨rest, key, keySpan, afterKey, rest', value, hrest, ⟨hless, hkey⟩, hrest',
              ⟨hlast, hvalue⟩, rfl⟩
  · intro hmember
    obtain ⟨rest, key, keySpan, afterKey, rest', value, hrest, ⟨hless, hkey⟩, hrest',
      ⟨hlast, hvalue⟩, rfl⟩ := hmember
    have hquote : Reads (readMark '"' .nameDue) c () _ := readMark_eq_ok_iff.mpr ⟨rest, hrest, rfl⟩
    have hcolon : Reads (readMark ':' .colonDue) _ () _ :=
      readMark_eq_ok_iff.mpr ⟨rest', hrest', rfl⟩
    obtain ⟨lessQuote, hquote⟩ := hquote
    obtain ⟨lessColon, hcolon⟩ := hcolon
    have bound : d.rest.length < c.rest.length := by
      have hblanks := afterKey.skipBlanks_length
      have hblanks' := Cursor.skipBlanks_length ⟨rest', afterKey.skipBlanks.offset + 1⟩
      omega
    refine ⟨bound, ?_⟩
    simp only [readMember, hquote, hkey, hcolon, hvalue]

theorem isMark_colon : IsMark ':' := ⟨by decide, by decide, by decide⟩

theorem isMark_quote : IsMark '"' := ⟨by decide, by decide, by decide⟩

theorem covering_quoted (start : Nat) (body : List Char) :
    covering start ('"' :: (body ++ ['"'])) = ⟨start, start + 1 + byteLength (body ++ ['"'])⟩ := by
  rw [covering, byteLength_cons, isMark_quote.size, Nat.add_assoc]

/-- The end of a text is the end of its last part. -/
theorem covering_append (start : Nat) (text more : List Char) :
    covering start (text ++ more) = ⟨start, (covering (start + byteLength text) more).stop⟩ := by
  rw [covering, covering, byteLength_append, Nat.add_assoc]

/-- **A member is read as it is derived**, if its element is and bears its span. -/
theorem follows_readMember (helement : Follows element rule)
    (hbegins : Begins rule fun c => Cursor.isBlank c = false)
    (hspan : ∀ text start node, rule text start node → node.span = covering start text) :
    Follows (readMember element) (MemberText rule) where
  sound := by
    intro c d member h
    obtain ⟨rest, key, keySpan, afterKey, rest', value, hrest, hkey, hmark, hvalue, rfl⟩ :=
      readMember_eq_ok_iff.mp h
    have hquote := isMark_quote.covers hrest
    obtain ⟨token, htoken, body, decoded, rfl, hbody, hdecoded⟩ := (follows_readString _).sound hkey
    obtain ⟨before, hbefore, hskip⟩ := afterKey.skipBlanks_sound
    have hcolon := isMark_colon.covers hmark
    obtain ⟨after, hafter, hskip'⟩ :=
      Cursor.skipBlanks_sound ⟨rest', afterKey.skipBlanks.offset + 1⟩
    obtain ⟨text, htext, hrule⟩ := helement.sound hvalue
    have hupto := hquote.trans (htoken.trans (hskip.trans (hcolon.trans hskip')))
    rw [Prod.mk.injEq] at hdecoded
    obtain ⟨rfl, rfl⟩ := hdecoded
    simp only [List.append_assoc, List.cons_append, List.nil_append] at hupto
    rw [hupto.2] at hrule
    have hmember := MemberText.mk hbody hbefore hafter hrule
    have hcovers := hupto.trans htext
    have hspans := covering_append c.offset ('"' :: (body ++ '"' :: (before ++ ':' :: after))) text
    rw [← hspan _ _ _ hrule] at hspans
    simp only [List.append_assoc, List.cons_append] at hcovers hspans
    rw [hspans, covering_quoted] at hmember
    exact ⟨_, hcovers, hmember⟩
  complete := by
    intro c d _ _ hcovers hmember hstop
    cases hmember with
    | @mk _ body key before after text value hbody hbefore hafter hrule =>
      have e : '"' :: (body ++ '"' :: (before ++ ':' :: (after ++ text))) =
          ['"'] ++ ((body ++ ['"']) ++ (before ++ ([':'] ++ (after ++ text)))) := by simp
      rw [e] at hcovers
      obtain ⟨c₁, hquote, hcovers⟩ := hcovers.split
      obtain ⟨c₂, htoken, hcovers⟩ := hcovers.split
      obtain ⟨c₃, hblanks, hcovers⟩ := hcovers.split
      obtain ⟨c₄, hcolon, hcovers⟩ := hcovers.split
      obtain ⟨c₅, hblanks', htext⟩ := hcovers.split
      have hstart := (hquote.trans (htoken.trans (hblanks.trans (hcolon.trans hblanks')))).2
      have hrule' : rule text c₅.offset value := by
        rw [hstart]
        simpa using hrule
      have hkey : Reads (readString c.offset) c₁ (String.ofList key, _) c₂ :=
        (follows_readString c.offset).complete htoken ⟨body, key, rfl, hbody, rfl⟩ (by
          rw [hblanks.1, hcolon.1]
          exact stops_blanks hbefore (stops_cons.mpr isMark_colon.number))
      have hskip := Cursor.skipBlanks_eq hblanks hbefore hcolon.1 isMark_colon.blank
      obtain ⟨first, tail, rfl, hfirst⟩ := hbegins _ _ _ hrule
      have hskip' := Cursor.skipBlanks_eq hblanks' hafter htext.1 hfirst
      have hvalue := helement.complete htext hrule' hstop
      rw [isMark_quote.eq_of_covers hquote] at hkey
      rw [isMark_colon.eq_of_covers hcolon] at hskip'
      refine readMember_eq_ok_iff.mpr ⟨c₁.rest, _, _, c₂, c₄.rest, value, hquote.1, hkey,
        by rw [hskip]; exact hcolon.1, by rw [hskip, hskip']; exact hvalue, ?_⟩
      have hspans := covering_append c.offset ('"' :: (body ++ '"' :: (before ++ ':' :: after)))
        (first :: tail)
      rw [← hspan _ _ _ hrule] at hspans
      simp only [List.append_assoc, List.cons_append] at hspans
      rw [hspans, covering_quoted]

end Members

end SchemaCompiler
