/-
  File:      SchemaCompiler/Proofs/Json/Failures.lean
  Subject:   How the readers of a document fail, and how far they look.

  * `readParts_eq_error_iff`, `readBetween_eq_error_iff`, `readMember_eq_error_iff`, `FailsValue`
    -- a reader fails at a mark that it misses, or where a reader that it calls fails;
  * `Steady` -- what a reader gives depends on the text that it reads and on the next character,
    not on what comes after that one;
  * **`steady_readValue`**, `steady_readMember` -- the readers of values and members are steady.
-/
import SchemaCompiler.Proofs.Json.Derivations

namespace SchemaCompiler

open Grammar

/-! ## 1. Strings -/

theorem QuotedScan.push_eq_control {front seen : List Char} {scan : QuotedScan}
    (h : scan.push front = .control seen) :
    ∃ later, scan = .control later ∧ seen = front ++ later := by
  cases scan with
  | control later =>
    cases h
    exact ⟨later, rfl, rfl⟩
  | closed => cases h
  | unterminated => cases h

theorem scanQuoted_of_control {c : Char} (h : c.toNat < 0x20) (rest : List Char) :
    scanQuoted (c :: rest) = .control [] := by
  have hback : c ≠ '\\' := by
    rintro rfl
    exact absurd h (by decide)
  rw [scanQuoted, if_pos h]
  · rintro rfl
    exact absurd h (by decide)
  · intro e
    exact absurd e hback
  · intro d tail e
    exact absurd e hback

/-- The search ends at a control character that no backslash takes with it, whatever follows. -/
theorem scanQuoted_control {text front : List Char} (h : scanQuoted text = .control front) :
    ∃ c rest, text = front ++ c :: rest ∧ c.toNat < 0x20 ∧
      ∀ other, scanQuoted (front ++ c :: other) = .control front := by
  fun_induction scanQuoted text generalizing front with
  | case1 => cases h
  | case2 => cases h
  | case3 => cases h
  | case4 c tail ih =>
    obtain ⟨later, hscan, rfl⟩ := QuotedScan.push_eq_control h
    obtain ⟨d, rest, rfl, hd, hother⟩ := ih hscan
    refine ⟨d, rest, rfl, hd, fun other => ?_⟩
    show scanQuoted ('\\' :: c :: (later ++ d :: other)) = _
    rw [scanQuoted, hother]
    rfl
  | case5 c tail _ _ _ hcontrol =>
    cases h
    exact ⟨c, tail, rfl, hcontrol, scanQuoted_of_control hcontrol⟩
  | case6 c tail hquote hlast hescape hcontrol ih =>
    have hback : c ≠ '\\' := by
      intro e
      cases tail with
      | nil => exact hlast e rfl
      | cons d rest => exact hescape d rest e rfl
    obtain ⟨later, hscan, rfl⟩ := QuotedScan.push_eq_control h
    obtain ⟨d, rest, rfl, hd, hother⟩ := ih hscan
    refine ⟨d, rest, rfl, hd, fun other => ?_⟩
    show scanQuoted (c :: (later ++ d :: other)) = _
    rw [scanQuoted_plain (Nat.le_of_not_lt hcontrol) hquote hback, hother]
    rfl

/-- A string fails at its opening quote, or at a control character in it. -/
inductive FailsString (start : Nat) (c : Cursor) : SyntaxError → Prop
  | bad {token rest : List Char} {error : StringError} :
      scanQuoted c.rest = .closed token rest →
      FailsString start c ⟨.badString error, ⟨start, c.offset + byteLength token⟩⟩
  | control {front : List Char} :
      scanQuoted c.rest = .control front →
      FailsString start c ⟨.controlCharacter,
        ⟨c.offset + byteLength front, c.offset + byteLength front + 1⟩⟩
  | unterminated :
      FailsString start c ⟨.unterminatedString, ⟨start, c.offset + byteLength c.rest⟩⟩

/-- There is no other way to fail. -/
theorem failsString_of_readString {start : Nat} {c : Cursor} {e : SyntaxError}
    (h : readString start c = .error e) : FailsString start c e := by
  unfold readString at h
  split at h
  · rename_i token rest hscan
    simp only at h
    split at h
    · cases h
    · cases h
      exact .bad hscan
  · rename_i front hscan
    cases h
    exact .control hscan
  · cases h
    exact .unterminated

theorem readString_control {start : Nat} {c : Cursor} {front : List Char}
    (h : scanQuoted c.rest = .control front) :
    readString start c = .error ⟨.controlCharacter,
      ⟨c.offset + byteLength front, c.offset + byteLength front + 1⟩⟩ := by
  unfold readString
  split
  · rename_i e
    rw [h] at e
    cases e
  · rename_i e
    rw [h] at e
    cases e
    rfl
  · rename_i e
    rw [h] at e
    cases e

/-! ## 2. Parts -/

section Parts

variable {α : Type} {closing : Char} {due : SyntaxCause} {part : Reader α} {e : SyntaxError}

/-- Parts fail where one of them does, or where neither a comma nor the closing bracket follows. -/
theorem readParts_eq_error_iff {c : Cursor} :
    readParts closing due part c = .error e ↔
      part c.skipBlanks = .error e ∨
        ∃ first next, Reads part c.skipBlanks first next ∧
          ((next.skipBlanks.rest.head? ≠ some ',' ∧ next.skipBlanks.rest.head? ≠ some closing ∧
              e = next.skipBlanks.fail due) ∨
            ∃ rest, next.skipBlanks.rest = ',' :: rest ∧
              readParts closing due part ⟨rest, next.skipBlanks.offset + 1⟩ = .error e) := by
  constructor
  · intro h
    rw [readParts] at h
    split at h
    · rename_i e' hpart
      cases h
      exact .inl hpart
    · rename_i first next hnext hfirst
      refine .inr ⟨first, next, ⟨hnext, hfirst⟩, ?_⟩
      split at h
      · rename_i hnil
        cases h
        rw [hnil]
        exact .inl ⟨by simp, by simp, rfl⟩
      · rename_i mark rest hmark
        simp only at h
        split at h
        · rename_i hcomma
          subst hcomma
          split at h
          · rename_i e' hmore
            cases h
            exact .inr ⟨rest, hmark, hmore⟩
          · cases h
        · rename_i hcomma
          split at h
          · cases h
          · rename_i hclosing
            cases h
            rw [hmark]
            exact .inl ⟨by simpa using hcomma, by simpa using hclosing, rfl⟩
  · intro h
    rw [readParts]
    rcases h with hpart | ⟨first, next, ⟨hnext, hfirst⟩, h⟩
    · simp only [hpart]
    · simp only [hfirst]
      rcases h with ⟨hcomma, hclosing, rfl⟩ | ⟨rest, hrest, hmore⟩
      · split
        · rfl
        · rename_i mark rest hmark
          rw [hmark] at hcomma hclosing
          have hcomma' : mark ≠ ',' := by simpa using hcomma
          have hclosing' : mark ≠ closing := by simpa using hclosing
          simp only [hcomma', hclosing', ↓reduceIte]
      · split
        · rename_i hnil
          rw [hnil] at hrest
          cases hrest
        · rename_i mark rest' hmark
          rw [hmark] at hrest
          cases hrest
          simp only [↓reduceIte, hmore]

/-- Nothing but the closing bracket needs no part. -/
theorem readBetween_eq_error_iff {c : Cursor} :
    readBetween closing due part c = .error e ↔
      c.skipBlanks.rest.head? ≠ some closing ∧ readParts closing due part c = .error e := by
  unfold readBetween
  constructor
  · intro h
    split at h
    · rename_i hnil
      rw [hnil]
      exact ⟨by simp, h⟩
    · rename_i mark rest hmark
      split at h
      · cases h
      · rename_i hclosing
        rw [hmark]
        exact ⟨by simpa using hclosing, h⟩
  · intro h
    obtain ⟨hhead, h⟩ := h
    split
    · exact h
    · rename_i mark rest hmark
      rw [hmark] at hhead
      have hclosing : mark ≠ closing := by simpa using hhead
      rw [if_neg hclosing]
      exact h

end Parts

/-! ## 3. Members -/

/-- Another mark stands there than the one that is due, or none. -/
theorem readMark_eq_error_iff {mark : Char} {due : SyntaxCause} {c : Cursor} {e : SyntaxError} :
    readMark mark due c = .error e ↔ c.rest.head? ≠ some mark ∧ e = c.fail due := by
  unfold readMark
  split
  · rename_i hnil
    rw [hnil, List.head?_nil, Except.error.injEq, eq_comm]
    exact (and_iff_right (Option.some_ne_none mark).symm).symm
  · rename_i first rest hrest
    have hhead : c.rest.head? = some first := by rw [hrest, List.head?_cons]
    rw [hhead, ne_eq, Option.some.injEq]
    split
    · rename_i hmark
      exact iff_of_false (fun h => by cases h) fun h => h.1 hmark
    · rename_i hmark
      rw [Except.error.injEq, eq_comm]
      exact (and_iff_right hmark).symm

/-- A member fails where one of its steps does. -/
theorem readMember_eq_error_iff {element : Reader Node} {c : Cursor} {e : SyntaxError} :
    readMember element c = .error e ↔
      (c.rest.head? ≠ some '"' ∧ e = c.fail .nameDue) ∨
        ∃ rest, c.rest = '"' :: rest ∧
          (readString c.offset ⟨rest, c.offset + 1⟩ = .error e ∨
            ∃ key afterKey, Reads (readString c.offset) ⟨rest, c.offset + 1⟩ key afterKey ∧
              ((afterKey.skipBlanks.rest.head? ≠ some ':' ∧
                  e = afterKey.skipBlanks.fail .colonDue) ∨
                ∃ rest', afterKey.skipBlanks.rest = ':' :: rest' ∧
                  element (Cursor.skipBlanks ⟨rest', afterKey.skipBlanks.offset + 1⟩) =
                    .error e)) := by
  constructor
  · intro h
    unfold readMember at h
    split at h
    · rename_i hquote
      cases h
      exact .inl (readMark_eq_error_iff.mp hquote)
    · rename_i body lessQuote hquote
      obtain ⟨rest, hrest, rfl⟩ := readMark_eq_ok_iff.mp ⟨lessQuote, hquote⟩
      refine .inr ⟨rest, hrest, ?_⟩
      split at h
      · rename_i hkey
        cases h
        exact .inl hkey
      · rename_i key keySpan afterKey hless hkey
        refine .inr ⟨(key, keySpan), afterKey, ⟨hless, hkey⟩, ?_⟩
        split at h
        · rename_i hcolon
          cases h
          exact .inl (readMark_eq_error_iff.mp hcolon)
        · rename_i afterColon lessColon hcolon
          obtain ⟨rest', hrest', rfl⟩ := readMark_eq_ok_iff.mp ⟨lessColon, hcolon⟩
          split at h
          · rename_i hvalue
            cases h
            exact .inr ⟨rest', hrest', hvalue⟩
          · cases h
  · intro h
    unfold readMember
    rcases h with hquote | ⟨rest, hrest, h⟩
    · simp only [readMark_eq_error_iff.mpr hquote]
    · have hquote : Reads (readMark '"' .nameDue) c () _ :=
        readMark_eq_ok_iff.mpr ⟨rest, hrest, rfl⟩
      obtain ⟨lessQuote, hquote⟩ := hquote
      rcases h with hkey | ⟨key, afterKey, ⟨hless, hkey⟩, h⟩
      · simp only [hquote, hkey]
      · rcases h with hcolon | ⟨rest', hrest', hvalue⟩
        · simp only [hquote, hkey, readMark_eq_error_iff.mpr hcolon]
        · have hcolon : Reads (readMark ':' .colonDue) _ () _ :=
            readMark_eq_ok_iff.mpr ⟨rest', hrest', rfl⟩
          obtain ⟨lessColon, hcolon⟩ := hcolon
          simp only [hquote, hkey, hcolon, hvalue]

/-! ## 4. Values -/

/-- How the value reader fails at a cursor, by the first character. -/
inductive FailsValue : Nat → Cursor → SyntaxError → Prop
  | empty {budget : Nat} {c : Cursor} :
      c.rest = [] → FailsValue budget c (c.fail .unexpectedEnd)
  | deep {c : Cursor} :
      c.rest.head? = some '\x7b' ∨ c.rest.head? = some '[' → FailsValue 0 c (c.fail .tooDeep)
  | object {budget : Nat} {c : Cursor} {rest : List Char} {e : SyntaxError} :
      c.rest = '\x7b' :: rest →
      readBetween '\x7d' .commaOrBraceDue (readMember (readValue budget)) ⟨rest, c.offset + 1⟩ =
        .error e →
      FailsValue (budget + 1) c e
  | array {budget : Nat} {c : Cursor} {rest : List Char} {e : SyntaxError} :
      c.rest = '[' :: rest →
      readBetween ']' .commaOrBracketDue (readValue budget) ⟨rest, c.offset + 1⟩ = .error e →
      FailsValue (budget + 1) c e
  | string {budget : Nat} {c : Cursor} {rest : List Char} {e : SyntaxError} :
      c.rest = '"' :: rest → readString c.offset ⟨rest, c.offset + 1⟩ = .error e →
      FailsValue budget c e
  | true {budget : Nat} {c : Cursor} {e : SyntaxError} :
      c.rest.head? = some 't' → readWord .true (.boolean .true) c = .error e →
      FailsValue budget c e
  | false {budget : Nat} {c : Cursor} {e : SyntaxError} :
      c.rest.head? = some 'f' → readWord .false (.boolean .false) c = .error e →
      FailsValue budget c e
  | null {budget : Nat} {c : Cursor} {e : SyntaxError} :
      c.rest.head? = some 'n' → readWord .null .null c = .error e → FailsValue budget c e
  | number {budget : Nat} {c : Cursor} {first : Char} {e : SyntaxError} :
      c.rest.head? = some first → first = '-' ∨ isDigit first = .true →
      readNumber c = .error e → FailsValue budget c e
  | stray {budget : Nat} {c : Cursor} {first : Char} :
      c.rest.head? = some first → first ∉ ['\x7b', '[', '"', 't', 'f', 'n', '-'] →
      isDigit first = .false → FailsValue budget c (c.fail .unexpectedCharacter)

/-- There is no other way to fail. -/
theorem failsValue_of_readValue {budget : Nat} {c : Cursor} {e : SyntaxError}
    (h : readValue budget c = .error e) : FailsValue budget c e := by
  unfold readValue at h
  split at h
  · rename_i hnil
    cases h
    exact .empty hnil
  · rename_i first rest hrest
    have hhead : c.rest.head? = some first := by rw [hrest]; rfl
    simp only at h
    split at h
    · rename_i hfirst
      subst hfirst
      split at h
      · cases h
        exact .deep (.inl hhead)
      · split at h
        · rename_i hread
          cases h
          exact .object hrest hread
        · cases h
    · rename_i hbrace
      split at h
      · rename_i hfirst
        subst hfirst
        split at h
        · cases h
          exact .deep (.inr hhead)
        · split at h
          · rename_i hread
            cases h
            exact .array hrest hread
          · cases h
      · rename_i hbracket
        split at h
        · rename_i hfirst
          subst hfirst
          split at h
          · rename_i hread
            cases h
            exact .string hrest hread
          · cases h
        · rename_i hquote
          split at h
          · rename_i hfirst
            exact .true (hfirst ▸ hhead) h
          · rename_i htrue
            split at h
            · rename_i hfirst
              exact .false (hfirst ▸ hhead) h
            · rename_i hfalse
              split at h
              · rename_i hfirst
                exact .null (hfirst ▸ hhead) h
              · rename_i hnull
                split at h
                · rename_i hfirst
                  exact .number hhead hfirst h
                · rename_i hnumber
                  cases h
                  obtain ⟨hminus, hdigit⟩ := not_or.mp hnumber
                  refine .stray hhead ?_ (Bool.not_eq_true _ ▸ hdigit)
                  simp only [List.mem_cons, List.not_mem_nil, or_false, not_or]
                  exact ⟨hbrace, hbracket, hquote, htrue, hfalse, hnull, hminus⟩

/-- Each of these ways is taken. -/
theorem readValue_of_failsValue {budget : Nat} {c : Cursor} {e : SyntaxError}
    (h : FailsValue budget c e) : readValue budget c = .error e := by
  obtain ⟨rest, offset⟩ := c
  cases h with
  | empty hnil =>
    simp only at hnil
    subst hnil
    rw [readValue]
  | deep hfirst =>
    rcases hfirst with hhead | hhead
    · obtain ⟨rest, rfl⟩ := List.head?_eq_some_iff.mp hhead
      simp only [readValue, ↓reduceIte]
    · obtain ⟨rest, rfl⟩ := List.head?_eq_some_iff.mp hhead
      simp only [readValue, Char.reduceEq, ↓reduceIte]
  | object hrest hread | array hrest hread | string hrest hread =>
    simp only at hrest
    subst hrest
    simp only [readValue, Char.reduceEq, ↓reduceIte, hread]
  | true hhead hread | false hhead hread | null hhead hread =>
    obtain ⟨rest, rfl⟩ := List.head?_eq_some_iff.mp hhead
    simp only [readValue, Char.reduceEq, ↓reduceIte, hread]
  | number hhead hfirst hread =>
    rw [readValue_eq_readNumber _ hhead hfirst]
    exact hread
  | stray hhead hfirst hdigit =>
    obtain ⟨rest, rfl⟩ := List.head?_eq_some_iff.mp hhead
    simp only [List.mem_cons, List.not_mem_nil, or_false, not_or] at hfirst
    obtain ⟨hbrace, hbracket, hquote, htrue, hfalse, hnull, hminus⟩ := hfirst
    rw [readValue]
    simp only [hbrace, hbracket, hquote, htrue, hfalse, hnull, hminus, hdigit, ↓reduceIte,
      Bool.false_eq_true, or_self]

/-! ## 5. How far a reader looks -/

namespace Cursor

variable {c d : Cursor} {text text' other : List Char}

theorem Covers.unique (h : c.Covers text d) (h' : c.Covers text' d) : text = text' :=
  List.append_cancel_right (h.1.symm.trans h'.1)

/-- The same text with something else after it. -/
theorem Covers.followed (h : c.Covers text d) (other : List Char) :
    Covers ⟨text ++ other, c.offset⟩ text ⟨other, d.offset⟩ :=
  ⟨rfl, h.2⟩

/-- A text that is followed by the same character begins alike. -/
theorem Covers.head?_followed (h : c.Covers text d) (hhead : other.head? = d.rest.head?) :
    (text ++ other).head? = c.rest.head? := by
  rw [h.1]
  exact head?_append_congr text hhead

theorem skipBlanks_followed (h : c.Covers text c.skipBlanks) (hblanks : Blanks text)
    (hhead : other.head? = c.skipBlanks.rest.head?) :
    skipBlanks ⟨text ++ other, c.offset⟩ = ⟨other, c.skipBlanks.offset⟩ :=
  skipBlanks_complete (h.followed other) hblanks ((stops_dropWhile _ _).congr hhead)

theorem fail_followed (hhead : other.head? = c.rest.head?) (cause : SyntaxCause) :
    fail ⟨other, c.offset⟩ cause = c.fail cause := by
  have hempty : other.isEmpty = c.rest.isEmpty := by
    rw [Bool.eq_iff_iff, List.isEmpty_iff, List.isEmpty_iff, ← List.head?_eq_none_iff,
      ← List.head?_eq_none_iff, hhead]
  simp only [fail, hempty]

end Cursor

/-- **What the reader gives depends on the text that it reads and on the next character only.** -/
def Steady {α : Type} (reader : Reader α) : Prop :=
  ∀ ⦃c d : Cursor⦄ ⦃a : α⦄ ⦃text other : List Char⦄, Reads reader c a d → c.Covers text d →
    other.head? = d.rest.head? → Reads reader ⟨text ++ other, c.offset⟩ a ⟨other, d.offset⟩

/-- A string ends at its quote. -/
theorem steady_readString (start : Nat) : Steady (readString start) := by
  intro c d a text other hreads hcovers _
  obtain ⟨text', hcovers', body, decoded, rfl, hbody, rfl⟩ :=
    (follows_readString start).sound hreads
  cases hcovers.unique hcovers'
  exact readString_complete start (hcovers.followed other) hbody

theorem stops_of_readNumber {c d : Cursor} {node : Node} (h : Reads readNumber c node d) :
    Stops isNumberChar d.rest := by
  obtain ⟨shorter, h⟩ := h
  unfold readNumber at h
  split at h
  · cases h
  · simp only at h
    split at h
    · simp only [Except.ok.injEq, Prod.mk.injEq, Subtype.mk.injEq] at h
      obtain ⟨-, rfl⟩ := h
      exact stops_dropWhile _ _
    · cases h

/-- What ends a number that was read is no character of a number. -/
theorem stops_of_readValue {budget : Nat} {c d : Cursor} {n : Number} {span : Span}
    (h : Reads (readValue budget) c (.number n span) d) : Stops isNumberChar d.rest := by
  cases readsValue_of_reads h with
  | number _ _ hread => exact stops_of_readNumber hread
  | true _ hread | false _ hread | null _ hread =>
    obtain ⟨_, _, _, hnode⟩ := (follows_readWord _ _).sound hread
    cases hnode

/-- A value ends where it does, unless it is a number and the next character would go on with it. -/
theorem steady_readValue (budget : Nat) : Steady (readValue budget) := by
  intro c d node text other hreads hcovers hhead
  obtain ⟨text', hcovers', hvalue⟩ := (follows_readValue budget).sound hreads
  cases hcovers.unique hcovers'
  refine readValue_complete (fun b _ => follows_readValue b) (hcovers.followed other) hvalue ?_
  rintro n span rfl
  exact (stops_of_readValue hreads).congr hhead

/-- A member ends with its value. -/
theorem steady_readMember {element : Reader Node} {rule : Production Node}
    (helement : Follows element rule) (hsteady : Steady element) : Steady (readMember element) := by
  intro c d member text other hreads hcovers hhead
  obtain ⟨rest, key, keySpan, afterKey, rest', value, hrest, hkey, hmark, hvalue, rfl⟩ :=
    readMember_eq_ok_iff.mp hreads
  have hquote := isMark_quote.covers hrest
  obtain ⟨token, htoken, -⟩ := (follows_readString _).sound hkey
  obtain ⟨before, hbefore, hskip⟩ := afterKey.skipBlanks_sound
  have hcolon := isMark_colon.covers hmark
  obtain ⟨after, hafter, hskip'⟩ :=
    Cursor.skipBlanks_sound ⟨rest', afterKey.skipBlanks.offset + 1⟩
  obtain ⟨part, hpart, -⟩ := helement.sound hvalue
  have hupto := hquote.trans (htoken.trans (hskip.trans (hcolon.trans (hskip'.trans hpart))))
  cases hcovers.unique hupto
  have hnext : (before ++ ':' :: (after ++ (part ++ other))).head? = afterKey.rest.head? :=
    hskip.head?_followed (by rw [hmark]; rfl)
  have hblanks : Cursor.skipBlanks
      ⟨before ++ ':' :: (after ++ (part ++ other)), afterKey.offset⟩ =
        ⟨':' :: (after ++ (part ++ other)), afterKey.skipBlanks.offset⟩ :=
    Cursor.skipBlanks_followed hskip hbefore (by rw [hmark]; rfl)
  refine readMember_eq_ok_iff.mpr ⟨_, key, keySpan, _, after ++ (part ++ other), value, by simp,
    steady_readString _ hkey htoken hnext, by rw [hblanks], ?_, rfl⟩
  rw [hblanks, Cursor.skipBlanks_followed hskip' hafter (hpart.head?_followed hhead)]
  exact hsteady hvalue hpart hhead

end SchemaCompiler
