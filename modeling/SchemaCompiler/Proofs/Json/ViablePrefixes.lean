/-
  File:      SchemaCompiler/Proofs/Json/ViablePrefixes.lean
  Subject:   Where a syntax error stands.

  An error stands at the character that no document can have there, or at the token that the
  character is in. So the text before it can still become a document, and the text after that
  character has no say in it:

  * `Viable` -- a rule of the grammar derives a text that begins with this one;
  * `Pinpoints reader rule` -- every error of a reader stands at a place of the text, what is
    before the place is viable, and (errors about tokens apart) the next character decides;
  * `pinpoints_readBetween`, `pinpoints_readMember` -- one lemma for each reader that calls another;
  * `pinpoints_readValue` -- by induction on the budget, which is what is left of the limit inside
    the brackets that are open;
  * **`parse_error_viable`** -- the same of documents.
-/
import SchemaCompiler.Proofs.Json.Failures

namespace SchemaCompiler

open Grammar

/-! ## 1. Viable texts -/

/-- The rule derives a text that begins with `eaten`. -/
def Viable {α : Type} (rule : Production α) (start : Nat) (eaten : List Char) : Prop :=
  ∃ more a, rule (eaten ++ more) start a

theorem Viable.of_append {α : Type} {rule : Production α} {start : Nat} {eaten more : List Char}
    (h : Viable rule start (eaten ++ more)) : Viable rule start eaten := by
  obtain ⟨later, a, h⟩ := h
  rw [List.append_assoc] at h
  exact ⟨more ++ later, a, h⟩

theorem viable_value_nil (budget start : Nat) : Viable (ValueWithin budget) start [] :=
  ⟨"null".toList, _, .null, Nat.zero_le _⟩

theorem viable_member {rule : Production Node} {start : Nat}
    {body key before after eaten : List Char} (hbody : StringBody body key)
    (hbefore : Blanks before) (hafter : Blanks after)
    (h : Viable rule
      (start + byteLength ('"' :: (body ++ '"' :: (before ++ ':' :: after)))) eaten) :
    Viable (MemberText rule) start
      ('"' :: (body ++ '"' :: (before ++ ':' :: (after ++ eaten)))) := by
  obtain ⟨more, node, h⟩ := h
  have hmember := MemberText.mk hbody hbefore hafter h
  have e : '"' :: (body ++ '"' :: (before ++ ':' :: (after ++ (eaten ++ more)))) =
      '"' :: (body ++ '"' :: (before ++ ':' :: (after ++ eaten))) ++ more := by simp
  rw [e] at hmember
  exact ⟨more, _, hmember⟩

/-- A name alone, if there are elements at all. -/
theorem viable_name {rule : Production Node} {start : Nat} {body key before : List Char}
    (hbody : StringBody body key) (hbefore : Blanks before) (hnil : ∀ start, Viable rule start []) :
    Viable (MemberText rule) start ('"' :: (body ++ '"' :: before)) := by
  have hmember : Viable (MemberText rule) start
      ('"' :: (body ++ '"' :: (before ++ ':' :: ([] ++ [])))) :=
    viable_member hbody hbefore (by decide) (hnil _)
  have e : '"' :: (body ++ '"' :: (before ++ ':' :: ([] ++ []))) =
      '"' :: (body ++ '"' :: before) ++ [':'] := by simp
  rw [e] at hmember
  exact hmember.of_append

section Parts

variable {α : Type} {rule : Production α} {closing : Char} {start : Nat}
  {before text after eaten : List Char} {a : α}

/-- One part or more and the closing bracket. -/
def PartsText (rule : Production α) (closing : Char) : Production (List α) :=
  fun text start parts => ∃ body, text = body ++ [closing] ∧ Parts rule body start parts

theorem viable_parts_first (hbefore : Blanks before)
    (h : Viable rule (start + byteLength before) eaten) :
    Viable (PartsText rule closing) start (before ++ eaten) := by
  obtain ⟨more, a, h⟩ := h
  refine ⟨more ++ [closing], [a], before ++ ((eaten ++ more) ++ []), by simp, ?_⟩
  exact .last hbefore h (by decide)

theorem viable_parts_last (hbefore : Blanks before) (h : rule text (start + byteLength before) a)
    (hafter : Blanks after) :
    Viable (PartsText rule closing) start (before ++ (text ++ after)) :=
  ⟨[closing], [a], before ++ (text ++ after), rfl, .last hbefore h hafter⟩

theorem viable_parts_more (hbefore : Blanks before) (h : rule text (start + byteLength before) a)
    (hafter : Blanks after)
    (hmore : Viable (PartsText rule closing)
      (start + byteLength (before ++ (text ++ (after ++ [','])))) eaten) :
    Viable (PartsText rule closing) start (before ++ (text ++ (after ++ ',' :: eaten))) := by
  obtain ⟨more, parts, body, hbody, hparts⟩ := hmore
  refine ⟨more, a :: parts, before ++ (text ++ (after ++ ',' :: body)), ?_,
    .more hbefore h hafter hparts⟩
  simp [hbody]

end Parts

theorem viable_array {budget start : Nat} {eaten : List Char}
    (h : Viable (BetweenText (ValueWithin budget) ']') (start + 1) eaten) :
    Viable (ValueWithin (budget + 1)) start ('[' :: eaten) := by
  obtain ⟨more, items, h⟩ := h
  exact ⟨more, _, arrayWithin_of_between h⟩

theorem viable_object {budget start : Nat} {eaten : List Char}
    (h : Viable (BetweenText (MemberText (ValueWithin budget)) '\x7d') (start + 1) eaten) :
    Viable (ValueWithin (budget + 1)) start ('\x7b' :: eaten) := by
  obtain ⟨more, members, h⟩ := h
  exact ⟨more, _, objectWithin_of_between h⟩

/-! ## 2. Places of errors -/

/-- The error stands in the text at the cursor, after `eaten` and before `left`. -/
structure Cursor.Located (c : Cursor) (eaten left : List Char) (e : SyntaxError) : Prop where
  rest : c.rest = eaten ++ left
  start : e.span.start = c.offset + byteLength eaten
  order : e.span.start ≤ e.span.stop
  stop : e.span.stop ≤ c.offset + byteLength c.rest

theorem Cursor.Covers.located {c d : Cursor} {text eaten left : List Char} {e : SyntaxError}
    (hc : c.Covers text d) (h : d.Located eaten left e) : c.Located (text ++ eaten) left e where
  rest := by rw [hc.1, h.rest, List.append_assoc]
  start := by rw [h.start, hc.2, byteLength_append, Nat.add_assoc]
  order := h.order
  stop := by
    have hstop := h.stop
    rw [hc.2] at hstop
    rw [hc.1, byteLength_append]
    omega

theorem Cursor.Located.head?_followed {c : Cursor} {eaten left other : List Char}
    {e : SyntaxError} (h : c.Located eaten left e) (hhead : other.head? = left.head?) :
    (eaten ++ other).head? = c.rest.head? := by
  rw [h.rest]
  exact head?_append_congr eaten hhead

theorem byteLength_pos {text : List Char} (h : text ≠ []) : 0 < byteLength text := by
  cases text with
  | nil => exact absurd rfl h
  | cons c rest =>
    have := c.utf8Size_pos
    rw [byteLength_cons]
    omega

theorem Cursor.located_fail (c : Cursor) (cause : SyntaxCause) :
    c.Located [] c.rest (c.fail cause) where
  rest := rfl
  start := rfl
  order := by
    simp only [fail]
    split <;> omega
  stop := by
    simp only [fail]
    split
    · omega
    · rename_i hempty
      have := byteLength_pos (mt List.isEmpty_iff.mpr hempty)
      omega

/-- The causes that are about a token as a whole: their errors stand at its first character. -/
def SyntaxCause.isOfToken : SyntaxCause → Bool
  | .wordDue _ | .badNumber _ | .unterminatedString | .badString _ => true
  | .unexpectedCharacter | .unexpectedEnd | .trailingCharacters | .tooDeep | .nameDue | .colonDue
  | .commaOrBracketDue | .commaOrBraceDue | .controlCharacter => false

/-- What is said of an error of a reader that follows a rule: where it stands, that the text before
    it can still become what the rule derives, and that the next character is enough for it. -/
structure Placed {α : Type} (reader : Reader α) (rule : Production α) (c : Cursor)
    (eaten left : List Char) (e : SyntaxError) : Prop where
  located : c.Located eaten left e
  viable : e.cause ≠ .controlCharacter → Viable rule c.offset eaten
  decided : e.cause.isOfToken = false → ∀ other, other.head? = left.head? →
    reader ⟨eaten ++ other, c.offset⟩ = .error e

/-- **All errors of the reader are placed.** -/
def Pinpoints {α : Type} (reader : Reader α) (rule : Production α) : Prop :=
  ∀ ⦃c : Cursor⦄ ⦃e : SyntaxError⦄, reader c = .error e →
    ∃ eaten left, Placed reader rule c eaten left e

/-! ## 3. Tokens -/

theorem located_readWord {word : Word} {node : Span → Node} {c : Cursor} {e : SyntaxError}
    (h : readWord word node c = .error e) :
    c.Located [] c.rest e ∧ e.cause = .wordDue word := by
  simp only [readWord] at h
  split at h
  · cases h
  · cases h
    exact ⟨c.located_fail _, rfl⟩

theorem located_readNumber {c : Cursor} {first : Char} {e : SyntaxError}
    (hhead : c.rest.head? = some first) (h : readNumber c = .error e) :
    c.Located [] c.rest e ∧ ∃ token, e.cause = .badNumber token := by
  unfold readNumber at h
  split at h
  · rename_i hnil
    rw [hnil] at hhead
    cases hhead
  · rename_i first' rest hrest
    simp only at h
    split at h
    · cases h
    · cases h
      refine ⟨⟨rfl, rfl, Nat.le_add_right _ _, ?_⟩, _, rfl⟩
      have hsplit := congrArg byteLength
        (List.takeWhile_append_dropWhile (p := isNumberChar) (l := rest))
      rw [byteLength_append] at hsplit
      simp only [Cursor.spanTo, hrest, byteLength_cons]
      omega

/-- An error of a string stands at its opening quote, or at a control character in it. The search
    for the closing quote comes before the decoding, so that the text before the control character
    may hold an escape that is none. -/
theorem located_readString {c : Cursor} {rest : List Char} {e : SyntaxError}
    (hrest : c.rest = '"' :: rest) (h : readString c.offset ⟨rest, c.offset + 1⟩ = .error e) :
    (c.Located [] c.rest e ∧ e.cause.isOfToken = true) ∨
      ∃ eaten left, c.Located ('"' :: eaten) left e ∧ e.cause = .controlCharacter ∧
        ∀ other, other.head? = left.head? →
          readString c.offset ⟨eaten ++ other, c.offset + 1⟩ = .error e := by
  have hquote := isMark_quote.covers hrest
  cases failsString_of_readString h with
  | @bad token left error hscan =>
    have hsplit := congrArg byteLength (scanQuoted_sound hscan)
    rw [byteLength_append] at hsplit
    refine .inl ⟨⟨rfl, rfl, ?_, ?_⟩, rfl⟩
    · simp only; omega
    · simp only [hrest, byteLength_cons, isMark_quote.size] at hsplit ⊢
      omega
  | @control front hscan =>
    obtain ⟨x, left, hfront, -, hother⟩ := scanQuoted_control hscan
    simp only at hfront
    subst hfront
    have hsize := x.utf8Size_pos
    refine .inr ⟨front, x :: left, ⟨hrest, ?_, Nat.le_succ _, ?_⟩, rfl, ?_⟩
    · rw [byteLength_cons, isMark_quote.size, ← Nat.add_assoc]
    · rw [hrest, byteLength_cons, byteLength_append, byteLength_cons, isMark_quote.size]
      simp only
      omega
    · intro other hhead
      obtain ⟨other, rfl⟩ := List.head?_eq_some_iff.mp hhead
      exact readString_control (hother other)
  | unterminated =>
    refine .inl ⟨⟨rfl, rfl, ?_, ?_⟩, rfl⟩
    · simp only; omega
    · simp only [hrest, byteLength_cons, isMark_quote.size]
      omega

/-! ## 4. Parts -/

section Parts

variable {α : Type} {closing : Char} {due : SyntaxCause} {part : Reader α} {rule : Production α}

/-- The first part is read from another text alike. -/
theorem reads_first_followed (hsteady : Steady part) {c next : Cursor} {first : α}
    {before text other : List Char} (hbefore : Blanks before)
    (hc : c.Covers before c.skipBlanks) (hfirst : Reads part c.skipBlanks first next)
    (htext : c.skipBlanks.Covers text next) (hhead : other.head? = next.rest.head?) :
    Reads part (Cursor.skipBlanks ⟨before ++ (text ++ other), c.offset⟩) first
      ⟨other, next.offset⟩ := by
  rw [Cursor.skipBlanks_followed hc hbefore (htext.head?_followed hhead)]
  exact hsteady hfirst htext hhead

section Cases

variable {c : Cursor} {before : List Char} {e : SyntaxError} (hbefore : Blanks before)
  (hc : c.Covers before c.skipBlanks)
include hbefore hc

/-- The first part fails. -/
theorem placed_first {eaten left : List Char} (h : Placed part rule c.skipBlanks eaten left e) :
    Placed (readParts closing due part) (PartsText rule closing) c (before ++ eaten) left e where
  located := hc.located h.located
  viable := by
    intro hcause
    have hviable := h.viable hcause
    rw [hc.2] at hviable
    exact viable_parts_first hbefore hviable
  decided := by
    intro hcause other hhead
    have hskip := h.located.head?_followed hhead
    refine readParts_eq_error_iff.mpr (.inl ?_)
    rw [List.append_assoc, Cursor.skipBlanks_followed hc hbefore hskip]
    exact h.decided hcause other hhead

variable (hsteady : Steady part) {next : Cursor} {first : α} {text after : List Char}
  (hfirst : Reads part c.skipBlanks first next) (htext : c.skipBlanks.Covers text next)
  (hrule : rule text (c.offset + byteLength before) first) (hafter : Blanks after)
  (hnext : next.Covers after next.skipBlanks)
include hsteady hfirst htext hrule hafter hnext

/-- After the first part comes neither a comma nor the closing bracket. -/
theorem placed_mark (hcomma : next.skipBlanks.rest.head? ≠ some ',')
    (hclosing : next.skipBlanks.rest.head? ≠ some closing) :
    Placed (readParts closing due part) (PartsText rule closing) c (before ++ (text ++ after))
      next.skipBlanks.rest (next.skipBlanks.fail due) where
  located := by
    have hlocated := (hc.trans (htext.trans hnext)).located (next.skipBlanks.located_fail due)
    rwa [List.append_nil] at hlocated
  viable := fun _ => viable_parts_last hbefore hrule hafter
  decided := by
    intro _ other hhead
    have hread :=
      reads_first_followed hsteady hbefore hc hfirst htext (hnext.head?_followed hhead)
    rw [List.append_assoc, List.append_assoc]
    refine readParts_eq_error_iff.mpr (.inr ⟨first, _, hread, .inl ?_⟩)
    rw [Cursor.skipBlanks_followed hnext hafter hhead, Cursor.fail_followed hhead, hhead]
    exact ⟨hcomma, hclosing, rfl⟩

/-- What comes after the first comma fails. -/
theorem placed_later {rest eaten left : List Char} (hrest : next.skipBlanks.rest = ',' :: rest)
    (h : Placed (readParts closing due part) (PartsText rule closing)
      ⟨rest, next.skipBlanks.offset + 1⟩ eaten left e) :
    Placed (readParts closing due part) (PartsText rule closing) c
      (before ++ (text ++ (after ++ ',' :: eaten))) left e := by
  have hupto := (hc.trans (htext.trans hnext)).trans (isMark_comma.covers hrest)
  refine ⟨?_, ?_, ?_⟩
  · have hlocated := hupto.located h.located
    simpa using hlocated
  · intro hcause
    have hviable := h.viable hcause
    rw [hupto.2] at hviable
    refine viable_parts_more hbefore hrule hafter ?_
    simpa using hviable
  · intro hcause other hhead
    have hskip : (after ++ ',' :: (eaten ++ other)).head? = next.rest.head? :=
      hnext.head?_followed (by rw [hrest]; rfl)
    have hread := reads_first_followed hsteady hbefore hc hfirst htext hskip
    have hblanks : Cursor.skipBlanks ⟨after ++ ',' :: (eaten ++ other), next.offset⟩ =
        ⟨',' :: (eaten ++ other), next.skipBlanks.offset⟩ :=
      Cursor.skipBlanks_followed hnext hafter (by rw [hrest]; rfl)
    have hassoc : before ++ (text ++ (after ++ ',' :: eaten)) ++ other =
        before ++ (text ++ (after ++ ',' :: (eaten ++ other))) := by simp
    rw [hassoc]
    refine readParts_eq_error_iff.mpr
      (.inr ⟨first, _, hread, .inr ⟨eaten ++ other, by rw [hblanks], ?_⟩⟩)
    rw [hblanks]
    exact h.decided hcause other hhead

end Cases

variable (hfollows : Follows part rule) (hsteady : Steady part) (hpart : Pinpoints part rule)
include hfollows hsteady hpart

theorem placed_readParts {c : Cursor} {e : SyntaxError}
    (h : readParts closing due part c = .error e) :
    ∃ before eaten left, Blanks before ∧ c.Covers before c.skipBlanks ∧
      Placed (readParts closing due part) (PartsText rule closing) c (before ++ eaten) left e := by
  -- on the text left: each comma leaves less of it
  induction hn : c.rest.length using Nat.strongRecOn generalizing c with
  | ind n ih =>
    obtain ⟨before, hbefore, hc⟩ := c.skipBlanks_sound
    rcases readParts_eq_error_iff.mp h with hfail | ⟨first, next, hfirst, h⟩
    · obtain ⟨eaten, left, hplaced⟩ := hpart hfail
      exact ⟨before, eaten, left, hbefore, hc, placed_first hbefore hc hplaced⟩
    · obtain ⟨text, htext, hrule⟩ := hfollows.sound hfirst
      obtain ⟨after, hafter, hnext⟩ := next.skipBlanks_sound
      rw [hc.2] at hrule
      rcases h with ⟨hcomma, hclosing, rfl⟩ | ⟨rest, hrest, hmore⟩
      · exact ⟨before, text ++ after, _, hbefore, hc,
          placed_mark hbefore hc hsteady hfirst htext hrule hafter hnext hcomma hclosing⟩
      · have hupto := (hc.trans (htext.trans hnext)).trans (isMark_comma.covers hrest)
        have hless := hupto.shorter (by simp)
        obtain ⟨before', eaten, left, -, -, hplaced⟩ := ih _ (hn ▸ hless) hmore rfl
        exact ⟨before, text ++ (after ++ ',' :: (before' ++ eaten)), left, hbefore, hc,
          placed_later hbefore hc hsteady hfirst htext hrule hafter hnext hrest hplaced⟩

/-- **What stands between brackets is pinpointed**, if its parts are. -/
theorem pinpoints_readBetween :
    Pinpoints (readBetween closing due part) (BetweenText rule closing) := by
  intro c e h
  obtain ⟨hfirst, hparts⟩ := readBetween_eq_error_iff.mp h
  obtain ⟨before, eaten, left, hbefore, hc, hplaced⟩ :=
    placed_readParts hfollows hsteady hpart hparts
  refine ⟨before ++ eaten, left, hplaced.located, ?_, ?_⟩
  · intro hcause
    obtain ⟨more, parts, body, hbody, hderived⟩ := hplaced.viable hcause
    exact ⟨more, parts, body, hbody, .inr hderived⟩
  · intro hcause other hhead
    refine readBetween_eq_error_iff.mpr ⟨?_, hplaced.decided hcause other hhead⟩
    have hrest : c.skipBlanks.rest = eaten ++ left := by
      have := hc.1.symm.trans hplaced.located.rest
      rwa [List.append_assoc, List.append_cancel_left_eq] at this
    have hskip : (eaten ++ other).head? = c.skipBlanks.rest.head? := by
      rw [hrest]
      exact head?_append_congr eaten hhead
    rw [List.append_assoc, Cursor.skipBlanks_followed hc hbefore hskip, hskip]
    exact hfirst

end Parts

/-! ## 5. Members -/

/-- An error of a string, for a reader that reads a string if a quote comes first. -/
theorem placed_string {α : Type} {reader : Reader α} {rule : Production α} {c : Cursor}
    {rest : List Char} {e : SyntaxError} (hrest : c.rest = '"' :: rest)
    (h : readString c.offset ⟨rest, c.offset + 1⟩ = .error e) (hnil : Viable rule c.offset [])
    (hreader : ∀ inner, readString c.offset ⟨inner, c.offset + 1⟩ = .error e →
      reader ⟨'"' :: inner, c.offset⟩ = .error e) :
    ∃ eaten left, Placed reader rule c eaten left e := by
  rcases located_readString hrest h with
    ⟨hlocated, htoken⟩ | ⟨eaten, left, hlocated, hcause, hother⟩
  · refine ⟨[], c.rest, hlocated, fun _ => hnil, fun hcause => ?_⟩
    rw [htoken] at hcause
    cases hcause
  · exact ⟨'"' :: eaten, left, hlocated, fun hne => absurd hcause hne,
      fun _ other hhead => hreader _ (hother other hhead)⟩

section Members

variable {element : Reader Node} {rule : Production Node} {c : Cursor} {rest : List Char}
  (hrest : c.rest = '"' :: rest) {key : String × Span} {afterKey : Cursor}
  (hkey : Reads (readString c.offset) ⟨rest, c.offset + 1⟩ key afterKey)
include hrest hkey

/-- After the name comes no colon. -/
theorem placed_colon (hnil : ∀ start, Viable rule start [])
    (hcolon : afterKey.skipBlanks.rest.head? ≠ some ':') :
    ∃ eaten left, Placed (readMember element) (MemberText rule) c eaten left
      (afterKey.skipBlanks.fail .colonDue) := by
  obtain ⟨token, htoken, body, decoded, rfl, hbody, -⟩ := (follows_readString _).sound hkey
  obtain ⟨before, hbefore, hskip⟩ := afterKey.skipBlanks_sound
  have hupto := (isMark_quote.covers hrest).trans (htoken.trans hskip)
  refine ⟨'"' :: (body ++ '"' :: before), afterKey.skipBlanks.rest, ?_,
    fun _ => viable_name hbody hbefore hnil, ?_⟩
  · have hlocated := hupto.located (afterKey.skipBlanks.located_fail .colonDue)
    simpa using hlocated
  · intro _ other hhead
    have hnext := hskip.head?_followed hhead
    refine readMember_eq_error_iff.mpr (.inr ⟨body ++ ['"'] ++ (before ++ other), by simp, .inr
      ⟨key, _, steady_readString _ hkey htoken hnext, .inl ?_⟩⟩)
    rw [Cursor.skipBlanks_followed hskip hbefore hhead, Cursor.fail_followed hhead, hhead]
    exact ⟨hcolon, rfl⟩

/-- The element of a member fails. -/
theorem placed_element {rest' eaten left : List Char} {e : SyntaxError}
    (hmark : afterKey.skipBlanks.rest = ':' :: rest')
    (h : Placed element rule (Cursor.skipBlanks ⟨rest', afterKey.skipBlanks.offset + 1⟩)
      eaten left e) :
    ∃ eaten left, Placed (readMember element) (MemberText rule) c eaten left e := by
  obtain ⟨token, htoken, body, decoded, rfl, hbody, -⟩ := (follows_readString _).sound hkey
  obtain ⟨before, hbefore, hskip⟩ := afterKey.skipBlanks_sound
  obtain ⟨after, hafter, hskip'⟩ :=
    Cursor.skipBlanks_sound ⟨rest', afterKey.skipBlanks.offset + 1⟩
  have hupto := (isMark_quote.covers hrest).trans
    (htoken.trans (hskip.trans ((isMark_colon.covers hmark).trans hskip')))
  refine ⟨'"' :: (body ++ '"' :: (before ++ ':' :: (after ++ eaten))), left, ?_, ?_, ?_⟩
  · have hlocated := hupto.located h.located
    simpa using hlocated
  · intro hcause
    have hviable := h.viable hcause
    rw [hupto.2] at hviable
    refine viable_member hbody hbefore hafter ?_
    simpa using hviable
  · intro hcause other hhead
    have hnext : (before ++ ':' :: (after ++ (eaten ++ other))).head? = afterKey.rest.head? :=
      hskip.head?_followed (by rw [hmark]; rfl)
    have hblanks : Cursor.skipBlanks
        ⟨before ++ ':' :: (after ++ (eaten ++ other)), afterKey.offset⟩ =
          ⟨':' :: (after ++ (eaten ++ other)), afterKey.skipBlanks.offset⟩ :=
      Cursor.skipBlanks_followed hskip hbefore (by rw [hmark]; rfl)
    have hfirst := h.located.head?_followed hhead
    refine readMember_eq_error_iff.mpr (.inr
      ⟨body ++ ['"'] ++ (before ++ ':' :: (after ++ (eaten ++ other))), by simp, .inr
        ⟨key, _, steady_readString _ hkey htoken hnext, .inr
          ⟨after ++ (eaten ++ other), by rw [hblanks], ?_⟩⟩⟩)
    rw [hblanks, Cursor.skipBlanks_followed hskip' hafter hfirst]
    exact h.decided hcause other hhead

end Members

/-- **A member is pinpointed**, if its element is. -/
theorem pinpoints_readMember {element : Reader Node} {rule : Production Node}
    (helement : Pinpoints element rule) (hnil : ∀ start, Viable rule start []) :
    Pinpoints (readMember element) (MemberText rule) := by
  intro c e h
  have hempty : Viable (MemberText rule) c.offset [] :=
    (viable_name .empty (by decide : Blanks []) hnil).of_append
  rcases readMember_eq_error_iff.mp h with ⟨hname, rfl⟩ | ⟨rest, hrest, h⟩
  · refine ⟨[], c.rest, c.located_fail _, fun _ => hempty, fun _ other hhead => ?_⟩
    refine readMember_eq_error_iff.mpr (.inl ?_)
    rw [List.nil_append, Cursor.fail_followed hhead, hhead]
    exact ⟨hname, rfl⟩
  · rcases h with hkey | ⟨key, afterKey, hkey, ⟨hcolon, rfl⟩ | ⟨rest', hmark, hvalue⟩⟩
    · exact placed_string hrest hkey hempty fun inner hinner =>
        readMember_eq_error_iff.mpr (.inr ⟨inner, rfl, .inl hinner⟩)
    · exact placed_colon hrest hkey hnil hcolon
    · obtain ⟨eaten, left, hplaced⟩ := helement hvalue
      exact placed_element hrest hkey hmark hplaced

/-! ## 6. Values -/

/-- An error about the first character, which is enough for it. -/
theorem placed_fail {budget : Nat} {c : Cursor} {cause : SyntaxCause}
    (h : ∀ other, other.head? = c.rest.head? →
      FailsValue budget ⟨other, c.offset⟩ (Cursor.fail ⟨other, c.offset⟩ cause)) :
    ∃ eaten left, Placed (readValue budget) (ValueWithin budget) c eaten left (c.fail cause) := by
  refine ⟨[], c.rest, c.located_fail _, fun _ => viable_value_nil _ _, fun _ other hhead => ?_⟩
  rw [← Cursor.fail_followed hhead]
  exact readValue_of_failsValue (h other hhead)

/-- An error about a token that stands at the cursor. -/
theorem placed_token {budget : Nat} {c : Cursor} {e : SyntaxError}
    (h : c.Located [] c.rest e) (htoken : e.cause.isOfToken = true) :
    ∃ eaten left, Placed (readValue budget) (ValueWithin budget) c eaten left e := by
  refine ⟨[], c.rest, h, fun _ => viable_value_nil _ _, fun hcause => ?_⟩
  rw [htoken] at hcause
  cases hcause

/-- An error inside brackets, for a reader that reads what is between them. -/
theorem placed_bracket {α : Type} {budget : Nat} {inside : Reader α} {rule : Production α}
    {c : Cursor} {e : SyntaxError} {mark : Char} {rest : List Char} (hmark : IsMark mark)
    (hrest : c.rest = mark :: rest) (hinside : Pinpoints inside rule)
    (h : inside ⟨rest, c.offset + 1⟩ = .error e)
    (hviable : ∀ eaten, Viable rule (c.offset + 1) eaten →
      Viable (ValueWithin budget) c.offset (mark :: eaten))
    (hreader : ∀ inner, inside ⟨inner, c.offset + 1⟩ = .error e →
      readValue budget ⟨mark :: inner, c.offset⟩ = .error e) :
    ∃ eaten left, Placed (readValue budget) (ValueWithin budget) c eaten left e := by
  obtain ⟨eaten, left, hplaced⟩ := hinside h
  refine ⟨mark :: eaten, left, (hmark.covers hrest).located hplaced.located, ?_, ?_⟩
  · exact fun hcause => hviable eaten (hplaced.viable hcause)
  · exact fun hcause other hhead => hreader _ (hplaced.decided hcause other hhead)

theorem placed_value {budget : Nat} {c : Cursor} {e : SyntaxError}
    (ih : ∀ b, budget = b + 1 → Pinpoints (readValue b) (ValueWithin b))
    (h : FailsValue budget c e) :
    ∃ eaten left, Placed (readValue budget) (ValueWithin budget) c eaten left e := by
  cases h with
  | empty hrest =>
    refine placed_fail fun other hhead => .empty ?_
    rw [hrest] at hhead
    exact List.head?_eq_none_iff.mp hhead
  | deep hfirst =>
    refine placed_fail fun other hhead => .deep ?_
    rw [hhead]
    exact hfirst
  | @object b _ rest _ hrest hread =>
    have hmember := pinpoints_readMember (ih b rfl) (viable_value_nil b)
    have hinside : Pinpoints
        (readBetween '\x7d' .commaOrBraceDue (readMember (readValue b)))
        (BetweenText (MemberText (ValueWithin b)) '\x7d') :=
      pinpoints_readBetween (follows_member (follows_readValue b))
        (steady_readMember (follows_readValue b) (steady_readValue b)) hmember
    exact placed_bracket isMark_openBrace hrest hinside hread (fun _ => viable_object)
      fun _ hinner => readValue_of_failsValue (.object rfl hinner)
  | @array b _ rest _ hrest hread =>
    have hinside : Pinpoints (readBetween ']' .commaOrBracketDue (readValue b))
        (BetweenText (ValueWithin b) ']') :=
      pinpoints_readBetween (follows_readValue b) (steady_readValue b) (ih b rfl)
    exact placed_bracket isMark_openBracket hrest hinside hread (fun _ => viable_array)
      fun _ hinner => readValue_of_failsValue (.array rfl hinner)
  | string hrest hread =>
    exact placed_string hrest hread (viable_value_nil _ _) fun _ hinner =>
      readValue_of_failsValue (.string rfl hinner)
  | true _ hread | false _ hread | null _ hread =>
    obtain ⟨hlocated, hcause⟩ := located_readWord hread
    exact placed_token hlocated (by rw [hcause]; rfl)
  | number hhead _ hread =>
    obtain ⟨hlocated, token, hcause⟩ := located_readNumber hhead hread
    exact placed_token hlocated (by rw [hcause]; rfl)
  | stray hfirst hmarks hdigit =>
    refine placed_fail fun other hhead => .stray ?_ hmarks hdigit
    rw [hhead]
    exact hfirst

/-- **A value is pinpointed** within every budget. -/
theorem pinpoints_readValue (budget : Nat) :
    Pinpoints (readValue budget) (ValueWithin budget) := by
  induction budget with
  | zero =>
    intro c e h
    refine placed_value (fun b heq => ?_) (failsValue_of_readValue h)
    omega
  | succ b hb =>
    intro c e h
    refine placed_value (fun b' heq => ?_) (failsValue_of_readValue h)
    cases heq
    exact hb

/-! ## 7. Documents -/

theorem read_eq_error_iff {source : List Char} {e : SyntaxError} :
    Node.read source = .error e ↔
      readValue depthLimit (Cursor.skipBlanks ⟨source, 0⟩) = .error e ∨
        ∃ node last, Reads (readValue depthLimit) (Cursor.skipBlanks ⟨source, 0⟩) node last ∧
          last.skipBlanks.rest ≠ [] ∧ e = last.skipBlanks.fail .trailingCharacters := by
  unfold Node.read
  constructor
  · intro h
    split at h
    · rename_i hread
      cases h
      exact .inl hread
    · rename_i node last hlast hread
      split at h
      · cases h
      · rename_i hempty
        cases h
        exact .inr ⟨node, last, ⟨hlast, hread⟩, mt List.isEmpty_iff.mpr hempty, rfl⟩
  · intro h
    rcases h with hread | ⟨node, last, ⟨hlast, hread⟩, hrest, rfl⟩
    · simp only [hread]
    · have hempty := mt List.isEmpty_iff.mp hrest
      simp only [hread, hempty]
      rfl

/-- The same as `Placed`, of an error of a document. -/
structure PlacedIn (source front back : List Char) (e : SyntaxError) : Prop where
  located : Cursor.Located ⟨source, 0⟩ front back e
  viable : e.cause ≠ .controlCharacter → ∃ more node, Node.read (front ++ more) = .ok node
  decided : e.cause.isOfToken = false → ∀ other, other.head? = back.head? →
    Node.read (front ++ other) = .error e

section Documents

variable {source : List Char} {before : List Char} (hbefore : Blanks before)
  (hc : Cursor.Covers ⟨source, 0⟩ before (Cursor.skipBlanks ⟨source, 0⟩))
include hbefore hc

/-- The value of the document fails. -/
theorem placedIn_of_value {eaten left : List Char} {e : SyntaxError}
    (h : Placed (readValue depthLimit) (ValueWithin depthLimit) (Cursor.skipBlanks ⟨source, 0⟩)
      eaten left e) : PlacedIn source (before ++ eaten) left e where
  located := hc.located h.located
  viable := by
    intro hcause
    obtain ⟨more, node, hvalue, hdepth⟩ := h.viable hcause
    rw [hc.2, Nat.zero_add] at hvalue
    have hdocument : IsDocument (before ++ ((eaten ++ more) ++ [])) node :=
      .mk hbefore hvalue (by decide)
    rw [List.append_nil, ← List.append_assoc] at hdocument
    exact ⟨more, node, hdocument.read_eq_ok hdepth⟩
  decided := by
    intro hcause other hhead
    have hskip := h.located.head?_followed hhead
    refine read_eq_error_iff.mpr (.inl ?_)
    rw [List.append_assoc, Cursor.skipBlanks_followed hc hbefore hskip]
    exact h.decided hcause other hhead

/-- More than blanks follows the value of the document, which is a document without it. -/
theorem placedIn_of_trailing {node : Node} {last : Cursor} {text after : List Char}
    (hread : Reads (readValue depthLimit) (Cursor.skipBlanks ⟨source, 0⟩) node last)
    (htext : (Cursor.skipBlanks ⟨source, 0⟩).Covers text last)
    (hvalue : ValueWithin depthLimit text (byteLength before) node) (hafter : Blanks after)
    (hlast : last.Covers after last.skipBlanks) (hrest : last.skipBlanks.rest ≠ []) :
    PlacedIn source (before ++ (text ++ after)) last.skipBlanks.rest
      (last.skipBlanks.fail .trailingCharacters) where
  located := by
    have hlocated := (hc.trans (htext.trans hlast)).located
      (last.skipBlanks.located_fail .trailingCharacters)
    rwa [List.append_nil] at hlocated
  viable := by
    intro _
    have hdocument := IsDocument.mk hbefore hvalue.1 hafter
    refine ⟨[], node, ?_⟩
    rw [List.append_nil]
    exact hdocument.read_eq_ok hvalue.2
  decided := by
    intro _ other hhead
    have hread' := reads_first_followed (steady_readValue depthLimit) hbefore hc hread htext
      (hlast.head?_followed hhead)
    rw [List.append_assoc, List.append_assoc]
    refine read_eq_error_iff.mpr (.inr ⟨node, _, hread', ?_⟩)
    rw [Cursor.skipBlanks_followed hlast hafter hhead, Cursor.fail_followed hhead]
    refine ⟨fun hnil => hrest ?_, rfl⟩
    rw [← List.head?_eq_none_iff, ← hhead]
    exact List.head?_eq_none_iff.mpr hnil

end Documents

theorem placedIn_of_read {source : List Char} {e : SyntaxError}
    (h : Node.read source = .error e) : ∃ front back, PlacedIn source front back e := by
  obtain ⟨before, hbefore, hc⟩ := Cursor.skipBlanks_sound ⟨source, 0⟩
  rcases read_eq_error_iff.mp h with hfail | ⟨node, last, hread, hrest, rfl⟩
  · obtain ⟨eaten, left, hplaced⟩ := pinpoints_readValue depthLimit hfail
    exact ⟨before ++ eaten, left, placedIn_of_value hbefore hc hplaced⟩
  · obtain ⟨text, htext, hvalue⟩ := (follows_readValue depthLimit).sound hread
    obtain ⟨after, hafter, hlast⟩ := last.skipBlanks_sound
    rw [hc.2, Nat.zero_add] at hvalue
    exact ⟨before ++ (text ++ after), last.skipBlanks.rest,
      placedIn_of_trailing hbefore hc hread htext hvalue hafter hlast hrest⟩

/-- **A syntax error stands where the text can still become a document.** Its span lies in the
    source and begins at a character; unless it is about a control character in a string, some
    document within the depth limit begins with the text before it. It stands no earlier than it
    has to: every text that goes on after that with the same character, or ends there too, has this
    error, unless it is about a token, at whose first character it then stands. -/
theorem parse_error_viable (source : String) (e : SyntaxError) (h : Node.parse source = .error e) :
    ∃ front back, source.toList = front ++ back ∧ e.span.start = byteLength front ∧
      e.span.start ≤ e.span.stop ∧ e.span.stop ≤ byteLength source.toList ∧
      (e.cause ≠ .controlCharacter →
        ∃ more node, Node.parse (String.ofList (front ++ more)) = .ok node) ∧
      (e.cause.isOfToken = false → ∀ other, other.head? = back.head? →
        Node.parse (String.ofList (front ++ other)) = .error e) := by
  simp only [Node.parse, String.toList_ofList]
  obtain ⟨front, back, hlocated, hviable, hdecided⟩ := placedIn_of_read h
  have hstart : e.span.start = 0 + byteLength front := hlocated.start
  have hstop : e.span.stop ≤ 0 + byteLength source.toList := hlocated.stop
  rw [Nat.zero_add] at hstart hstop
  exact ⟨front, back, hlocated.rest, hstart, hlocated.order, hstop, hviable, hdecided⟩

/-- A comma with nothing after it, inside an array of a member. -/
def danglingComma : String := "\x7b\"é\":[null,]\x7d"

theorem parse_danglingComma :
    Node.parse danglingComma = .error ⟨.unexpectedCharacter, ⟨12, 13⟩⟩ := by
  let items : List Char := ['n', 'u', 'l', 'l', ',', ']', '\x7d']
  have hsource : danglingComma.toList = '\x7b' :: '"' :: 'é' :: '"' :: ':' :: '[' :: items := rfl
  have hcomma : readParts ']' .commaOrBracketDue (readValue 126) ⟨[']', '\x7d'], 12⟩ =
      .error ⟨.unexpectedCharacter, ⟨12, 13⟩⟩ :=
    readParts_eq_error_iff.mpr
      (.inl (readValue_of_failsValue (.stray rfl (by decide) (by decide))))
  have hcovers : Cursor.Covers ⟨items, 7⟩ "null".toList ⟨[',', ']', '\x7d'], 11⟩ := ⟨rfl, rfl⟩
  have hnull : Reads (readValue 126) ⟨items, 7⟩ (.null ⟨7, 11⟩) ⟨[',', ']', '\x7d'], 11⟩ :=
    (follows_readValue 126).complete hcovers ⟨.null, Nat.zero_le _⟩ (stops_cons.mpr (by decide))
  have hitems : readValue 127 ⟨'[' :: items, 6⟩ = .error ⟨.unexpectedCharacter, ⟨12, 13⟩⟩ :=
    readValue_of_failsValue (.array rfl (readBetween_eq_error_iff.mpr ⟨by decide,
      readParts_eq_error_iff.mpr (.inr ⟨_, _, hnull, .inr ⟨[']', '\x7d'], rfl, hcomma⟩⟩)⟩))
  have hname : Reads (readString 1) ⟨'é' :: '"' :: ':' :: '[' :: items, 2⟩ ("é", ⟨1, 5⟩)
      ⟨':' :: '[' :: items, 5⟩ :=
    readString_complete 1 ⟨rfl, rfl⟩ (stringBody_of_all_plain "é" (by decide))
  have hmember : readMember (readValue 127) ⟨'"' :: 'é' :: '"' :: ':' :: '[' :: items, 1⟩ =
      .error ⟨.unexpectedCharacter, ⟨12, 13⟩⟩ :=
    readMember_eq_error_iff.mpr (.inr ⟨_, rfl, .inr ⟨_, _, hname, .inr ⟨_, rfl, hitems⟩⟩⟩)
  rw [Node.parse, hsource]
  exact read_eq_error_iff.mpr (.inl (readValue_of_failsValue (.object rfl
    (readBetween_eq_error_iff.mpr ⟨by decide, readParts_eq_error_iff.mpr (.inl hmember)⟩))))

theorem parse_error_viable_danglingComma :
    Node.parse danglingComma = .error ⟨.unexpectedCharacter, ⟨12, 13⟩⟩ ∧
      ∃ front back, danglingComma.toList = front ++ back ∧ byteLength front = 12 ∧
        (∃ more node, Node.parse (String.ofList (front ++ more)) = .ok node) ∧
        ∀ other, other.head? = back.head? →
          Node.parse (String.ofList (front ++ other)) =
            .error ⟨.unexpectedCharacter, ⟨12, 13⟩⟩ := by
  obtain ⟨front, back, hsource, hstart, -, -, hviable, hdecided⟩ :=
    parse_error_viable danglingComma _ parse_danglingComma
  exact ⟨parse_danglingComma, front, back, hsource, hstart.symm,
    hviable (by decide), hdecided rfl⟩

end SchemaCompiler
