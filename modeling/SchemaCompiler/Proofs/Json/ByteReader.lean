/-
  File:      SchemaCompiler/Proofs/Json/ByteReader.lean
  Subject:   Reading a document byte by byte.

  `Node.read` takes characters off a list. The reader of this file does the same work on the UTF-8
  form of the text: it has a position, the number of brackets around it, and a record of the slices
  it took of the text. No type keeps its steps in order, so what can go wrong is an outcome of its
  own, a `Fault`:

  * `torn` -- a slice of the text that does not begin and end between characters, or bytes from
    beyond the end on;
  * `stalled` -- a turn of a loop that ends where it began or begins at the end of the text. All
    other loops end, since their positions grow;
  * `overrun` -- more values within each other than there are frames for.

  In a string a backslash takes two bytes (`stringTurn`), of which the second may be the first of a
  longer character, or there may be none.

  The second half of the file is about positions alone, and holds in every state, also where the
  position is inside a character:

  * `advancing_runTurn`, `advancing_stringTurn`, `advancing_partsTurn` -- every turn of a loop that
    goes on has moved the position;
  * **`moves_value`** -- a value leaves the position further on, and the depth as it was.
-/
import SchemaCompiler.Proofs.Json.Slices
import SchemaCompiler.Proofs.Text.Utf8

namespace SchemaCompiler

namespace ByteReader

/-! ## 1. States and outcomes -/

/-- The position, the number of brackets around it, and the slices taken so far, the last first. -/
structure State where
  pos : Nat
  depth : Nat
  slices : List Span
  deriving DecidableEq, Repr

/-- The same state at another position. -/
def State.moveTo (s : State) (pos : Nat) : State := { s with pos := pos }

@[simp] theorem State.moveTo_pos (s : State) (pos : Nat) : (s.moveTo pos).pos = pos := rfl

@[simp] theorem State.moveTo_depth (s : State) (pos : Nat) : (s.moveTo pos).depth = s.depth := rfl

@[simp] theorem State.moveTo_slices (s : State) (pos : Nat) :
    (s.moveTo pos).slices = s.slices := rfl

@[simp] theorem State.moveTo_moveTo (s : State) (pos pos' : Nat) :
    (s.moveTo pos).moveTo pos' = s.moveTo pos' := rfl

@[simp] theorem State.moveTo_self (s : State) : s.moveTo s.pos = s := rfl

/-- What must not happen. -/
inductive Fault where
  | torn | stalled | overrun
  deriving DecidableEq, Repr

/-- How a reader ends: with what it read, with an error, or not in order. -/
inductive Outcome (α : Type) where
  | done (value : α) (s : State)
  | failed (e : SyntaxError) (s : State)
  | faulty (fault : Fault)
  deriving Repr

/-- The outcome of a result, with the last state. -/
def Outcome.ofResult {α : Type} (result : Except SyntaxError α) (s : State) : Outcome α :=
  match result with
  | .ok a => .done a s
  | .error e => .failed e s

/-- Goes on with what was read. -/
def Outcome.andThen {α β : Type} (outcome : Outcome α) (next : α → State → Outcome β) :
    Outcome β :=
  match outcome with
  | .done a s => next a s
  | .failed e s => .failed e s
  | .faulty fault => .faulty fault

@[simp] theorem Outcome.andThen_done {α β : Type} (a : α) (s : State)
    (next : α → State → Outcome β) : (Outcome.done a s).andThen next = next a s := rfl

@[simp] theorem Outcome.andThen_failed {α β : Type} (e : SyntaxError) (s : State)
    (next : α → State → Outcome β) : (Outcome.failed e s).andThen next = .failed e s := rfl

theorem Outcome.andThen_eq_done_iff {α β : Type} {outcome : Outcome α}
    {next : α → State → Outcome β} {b : β} {s' : State} :
    outcome.andThen next = .done b s' ↔ ∃ a s, outcome = .done a s ∧ next a s = .done b s' := by
  cases outcome with
  | done a s =>
    constructor
    · intro h
      exact ⟨a, s, rfl, h⟩
    · rintro ⟨a', s', hdone, h⟩
      cases hdone
      exact h
  | failed e s => simp
  | faulty fault => simp [andThen]

/-- How one turn of a loop ends: with what the next turn begins with, or with the end of the
    loop. -/
inductive Turn (σ α : Type) where
  | again (acc : σ) (s : State)
  | leave (outcome : Outcome α)
  deriving Repr

/-- Turns until one leaves. A turn has to begin before `limit` and to move the position. -/
def loop {σ α : Type} (limit : Nat) (turn : σ → State → Turn σ α) (acc : σ) (s : State) :
    Outcome α :=
  match turn acc s with
  | .leave outcome => outcome
  | .again acc' s' =>
    if s.pos < s'.pos ∧ s.pos < limit then loop limit turn acc' s' else .faulty .stalled
termination_by limit - s.pos
decreasing_by omega

section Loop

variable {σ α : Type} {limit : Nat} {turn : σ → State → Turn σ α} {acc acc' : σ} {s s' : State}

theorem loop_leave {outcome : Outcome α} (h : turn acc s = .leave outcome) :
    loop limit turn acc s = outcome := by
  rw [loop, h]

theorem loop_again (h : turn acc s = .again acc' s') (hpos : s.pos < s'.pos)
    (hlimit : s.pos < limit) : loop limit turn acc s = loop limit turn acc' s' := by
  rw [loop, h]
  exact if_pos ⟨hpos, hlimit⟩

end Loop

/-! ## 2. The reader -/

variable (source : List Char)

/-- The byte at the position, if that is before the end. -/
def peek (s : State) : Option UInt8 := (utf8 source)[s.pos]?

/-- An error at the next byte, or at the end of the text. -/
def failHere (s : State) (cause : SyntaxCause) : SyntaxError :=
  ⟨cause, ⟨s.pos, min (s.pos + 1) (utf8 source).length⟩⟩

/-- Steps over a byte of a kind. -/
def runTurn (p : UInt8 → Bool) (_ : Unit) (s : State) : Turn Unit Unit :=
  match peek source s with
  | some b => if p b then .again () (s.moveTo (s.pos + 1)) else .leave (.done () s)
  | none => .leave (.done () s)

/-- Steps over all bytes of a kind. -/
def skipRun (p : UInt8 → Bool) (s : State) : Outcome Unit :=
  loop (utf8 source).length (runTurn source p) () s

def isBlankByte (b : UInt8) : Bool :=
  b = ' '.toUInt8 || b = '\t'.toUInt8 || b = '\n'.toUInt8 || b = '\r'.toUInt8

def skipBlanks (s : State) : Outcome Unit := skipRun source isBlankByte s

/-- The slice of the text from an offset up to the position. -/
def cut (start : Nat) (s : State) : Outcome (List Char) :=
  match slice? source ⟨start, s.pos⟩ with
  | some text => .done text { s with slices := ⟨start, s.pos⟩ :: s.slices }
  | none => .faulty .torn

/-- A word, at its first letter. -/
def word (w : Word) (node : Span → Node) (s : State) : Outcome Node :=
  let letters := utf8 w.name.toList
  if (utf8 source).length < s.pos then .faulty .torn
  else if letters.isPrefixOf ((utf8 source).drop s.pos) then
    .done (node ⟨s.pos, s.pos + letters.length⟩) (s.moveTo (s.pos + letters.length))
  else .failed (failHere source s (.wordDue w)) s

def isDigitByte (b : UInt8) : Bool := '0'.toUInt8 ≤ b && b ≤ '9'.toUInt8

def isNumberByte (b : UInt8) : Bool :=
  b = '-'.toUInt8 || b = '+'.toUInt8 || b = '.'.toUInt8 || b = 'e'.toUInt8 || b = 'E'.toUInt8 ||
    isDigitByte b

/-- A number, at its sign or first digit. -/
def number (s : State) : Outcome Node :=
  (skipRun source isNumberByte s).andThen fun _ last =>
  (cut source s.pos last).andThen fun token after =>
    match Numeral.ofToken? token with
    | some n => .done (.number n.value ⟨s.pos, last.pos⟩) after
    | none => .failed ⟨.badNumber (String.ofList token), ⟨s.pos, last.pos⟩⟩ after

/-- Looks for the closing quote of a string that begins at `start`. A backslash takes the next byte
    with it, whatever it is. -/
def stringTurn (start : Nat) (_ : Unit) (s : State) : Turn Unit Unit :=
  match peek source s with
  | none => .leave (.failed ⟨.unterminatedString, ⟨start, (utf8 source).length⟩⟩ s)
  | some b =>
    if b = '"'.toUInt8 then .leave (.done () (s.moveTo (s.pos + 1)))
    else if b = '\\'.toUInt8 then .again () (s.moveTo (s.pos + 2))
    else if b < 0x20 then .leave (.failed (failHere source s .controlCharacter) s)
    else .again () (s.moveTo (s.pos + 1))

/-- A string, at its opening quote: its value and its span. -/
def string (s : State) : Outcome (String × Span) :=
  (loop (utf8 source).length (stringTurn source s.pos) () (s.moveTo (s.pos + 1))).andThen
    fun _ last =>
  (cut source s.pos last).andThen fun token after =>
    match unquote ⟨1, 1⟩ token.tail with
    | .ok (decoded, _) => .done (String.ofList decoded, ⟨s.pos, last.pos⟩) after
    | .error error => .failed ⟨.badString error, ⟨s.pos, last.pos⟩⟩ after

section Parts

variable {α : Type} (closing : UInt8) (due : SyntaxCause) (part : State → Outcome α)

/-- One part between blanks, and the mark after it. -/
def partsTurn (parts : List α) (s : State) : Turn (List α) (List α) :=
  let read := (skipBlanks source s).andThen fun _ s =>
    (part s).andThen fun a s => (skipBlanks source s).andThen fun _ s => .done a s
  match read with
  | .done a s =>
    if peek source s = some ','.toUInt8 then .again (parts ++ [a]) (s.moveTo (s.pos + 1))
    else if peek source s = some closing then
      .leave (.done (parts ++ [a]) (s.moveTo (s.pos + 1)))
    else .leave (.failed (failHere source s due) s)
  | .failed e s => .leave (.failed e s)
  | .faulty fault => .leave (.faulty fault)

/-- What stands between brackets, after the opening one. -/
def between (s : State) : Outcome (List α) :=
  (skipBlanks source s).andThen fun _ s =>
    if peek source s = some closing then .done [] (s.moveTo (s.pos + 1))
    else loop (utf8 source).length (partsTurn source closing due part) [] s

/-- An array or an object, at its opening bracket. -/
def bracketed (node : List α → Span → Node) (s : State) : Outcome Node :=
  (between source closing due part (s.moveTo (s.pos + 1))).andThen fun parts last =>
    .done (node parts ⟨s.pos, last.pos⟩) last

end Parts

/-- A member of an object: a name, a colon, a value. -/
def member (element : State → Outcome Node) (s : State) : Outcome (Member Node) :=
  if peek source s = some '"'.toUInt8 then
    (string source s).andThen fun key s =>
    (skipBlanks source s).andThen fun _ s =>
      if peek source s = some ':'.toUInt8 then
        (skipBlanks source (s.moveTo (s.pos + 1))).andThen fun _ s =>
        (element s).andThen fun value s =>
          .done ⟨key.1, key.2, value, ⟨key.2.start, value.span.stop⟩⟩ s
      else .failed (failHere source s .colonDue) s
  else .failed (failHere source s .nameDue) s

/-- Counts a bracket while `inner` reads what it opens, however that ends. -/
def deeper {α : Type} (inner : State → Outcome α) (s : State) : Outcome α :=
  if depthLimit ≤ s.depth then .failed (failHere source s .tooDeep) s
  else
    match inner { s with depth := s.depth + 1 } with
    | .done a s => .done a { s with depth := s.depth - 1 }
    | .failed e s => .failed e { s with depth := s.depth - 1 }
    | .faulty fault => .faulty fault

/-- One value, by its first byte; `element` reads the values in it. -/
def dispatch (element : State → Outcome Node) (s : State) : Outcome Node :=
  match peek source s with
  | none => .failed (failHere source s .unexpectedEnd) s
  | some b =>
    if b = '\x7b'.toUInt8 then
      deeper source
        (bracketed source '\x7d'.toUInt8 .commaOrBraceDue (member source element) .object) s
    else if b = '['.toUInt8 then
      deeper source (bracketed source ']'.toUInt8 .commaOrBracketDue element .array) s
    else if b = '"'.toUInt8 then
      (string source s).andThen fun token s => .done (.string token.1 token.2) s
    else if b = 't'.toUInt8 then word source .true (.boolean true) s
    else if b = 'f'.toUInt8 then word source .false (.boolean false) s
    else if b = 'n'.toUInt8 then word source .null .null s
    else if b = '-'.toUInt8 ∨ isDigitByte b then number source s
    else .failed (failHere source s .unexpectedCharacter) s

/-- One value, with at most `frames` calls within this one. -/
def value : Nat → State → Outcome Node
  | 0 => dispatch source fun _ => .faulty .overrun
  | frames + 1 => dispatch source (value frames)

/-- Reads a document: one value between blanks. -/
def parse (frames : Nat) : Outcome Node :=
  (skipBlanks source ⟨0, 0, []⟩).andThen fun _ s =>
  (value source frames s).andThen fun node s =>
  (skipBlanks source s).andThen fun _ s =>
    if s.pos < (utf8 source).length then .failed (failHere source s .trailingCharacters) s
    else .done node s

/-! ## 3. Turns -/

variable {source}

/-- A turn that goes on has moved the position. -/
def Advancing {σ α : Type} (turn : σ → State → Turn σ α) : Prop :=
  ∀ ⦃acc acc' : σ⦄ ⦃s s' : State⦄, turn acc s = .again acc' s' → s.pos < s'.pos

/-- From one state to the other the position does not go back, and the depth stays. -/
def State.Onward (s s' : State) : Prop := s.pos ≤ s'.pos ∧ s'.depth = s.depth

theorem State.Onward.trans {s s' s'' : State} (h : s.Onward s') (h' : s'.Onward s'') :
    s.Onward s'' :=
  ⟨h.1.trans h'.1, h'.2.trans h.2⟩

theorem State.onward_moveTo (s : State) (n : Nat) : s.Onward (s.moveTo (s.pos + n)) :=
  ⟨Nat.le_add_right _ _, rfl⟩

/-- What holds from turn to turn holds of the loop. -/
theorem onward_loop {σ α : Type} {limit : Nat} {turn : σ → State → Turn σ α}
    (hagain : ∀ ⦃acc acc' s s'⦄, turn acc s = .again acc' s' → s.Onward s')
    (hleave : ∀ ⦃acc a s s'⦄, turn acc s = .leave (.done a s') → s.Onward s')
    {acc : σ} {s s' : State} {a : α} (h : loop limit turn acc s = .done a s') : s.Onward s' := by
  fun_induction loop limit turn acc s with
  | case1 acc s outcome hturn =>
    subst h
    exact hleave hturn
  | case2 acc s acc' next hturn hnext ih => exact (hagain hturn).trans (ih h)
  | case3 => cases h

theorem pos_lt_of_peek {s : State} {b : UInt8} (h : peek source s = some b) :
    s.pos < (utf8 source).length :=
  (List.getElem?_eq_some_iff.mp h).1

theorem runTurn_eq_again {p : UInt8 → Bool} {u u' : Unit} {s s' : State}
    (h : runTurn source p u s = .again u' s') : s' = s.moveTo (s.pos + 1) := by
  unfold runTurn at h
  split at h
  · split at h
    · cases h
      rfl
    · cases h
  · cases h

theorem advancing_runTurn (p : UInt8 → Bool) : Advancing (runTurn source p) := by
  intro u u' s s' h
  rw [runTurn_eq_again h]
  exact Nat.lt_succ_self _

theorem stringTurn_eq_again {start : Nat} {u u' : Unit} {s s' : State}
    (h : stringTurn source start u s = .again u' s') : ∃ n, s' = s.moveTo (s.pos + (n + 1)) := by
  unfold stringTurn at h
  split at h
  · cases h
  · split at h
    · cases h
    · split at h
      · cases h
        exact ⟨1, rfl⟩
      · split at h
        · cases h
        · cases h
          exact ⟨0, rfl⟩

theorem advancing_stringTurn (start : Nat) : Advancing (stringTurn source start) := by
  intro u u' s s' h
  obtain ⟨n, rfl⟩ := stringTurn_eq_again h
  rw [State.moveTo_pos]
  omega

/-! ## 4. Readers -/

/-- A reader that reads something begins before the end and moves the position, not the depth. -/
def Moves {α : Type} (source : List Char) (reader : State → Outcome α) : Prop :=
  ∀ ⦃s s' : State⦄ ⦃a : α⦄, reader s = .done a s' →
    s.pos < (utf8 source).length ∧ s.pos < s'.pos ∧ s'.depth = s.depth

theorem onward_skipRun {p : UInt8 → Bool} {s s' : State} {u : Unit}
    (h : skipRun source p s = .done u s') : s.Onward s' := by
  refine onward_loop (fun u u' s s' hturn => ?_) (fun u v s s' hturn => ?_) h
  · rw [runTurn_eq_again hturn]
    exact s.onward_moveTo 1
  · unfold runTurn at hturn
    split at hturn
    · split at hturn
      · cases hturn
      · cases hturn
        exact ⟨Nat.le_refl _, rfl⟩
    · cases hturn
      exact ⟨Nat.le_refl _, rfl⟩

theorem onward_skipBlanks {s s' : State} {u : Unit} (h : skipBlanks source s = .done u s') :
    s.Onward s' := onward_skipRun h

theorem cut_eq_done {start : Nat} {s s' : State} {text : List Char}
    (h : cut source start s = .done text s') :
    slice? source ⟨start, s.pos⟩ = some text ∧
      s' = { s with slices := ⟨start, s.pos⟩ :: s.slices } := by
  unfold cut at h
  split at h
  · rename_i text' hslice
    cases h
    exact ⟨hslice, rfl⟩
  · cases h

theorem moves_string : ∀ ⦃s s' : State⦄ ⦃token : String × Span⦄,
    string source s = .done token s' → s.pos < s'.pos ∧ s'.depth = s.depth := by
  intro s s' token h
  obtain ⟨u, last, hloop, h⟩ := Outcome.andThen_eq_done_iff.mp h
  obtain ⟨text, after, hcut, h⟩ := Outcome.andThen_eq_done_iff.mp h
  have honward : (s.moveTo (s.pos + 1)).Onward last := by
    refine onward_loop (fun u u' s s' hturn => ?_) (fun u v s s' hturn => ?_) hloop
    · obtain ⟨n, rfl⟩ := stringTurn_eq_again hturn
      exact s.onward_moveTo _
    · unfold stringTurn at hturn
      split at hturn
      · cases hturn
      · split at hturn
        · cases hturn
          exact s.onward_moveTo 1
        · split at hturn
          · cases hturn
          · split at hturn <;> cases hturn
  obtain ⟨-, rfl⟩ := cut_eq_done hcut
  split at h
  · cases h
    exact ⟨honward.1, honward.2⟩
  · cases h

theorem moves_word {w : Word} {node : Span → Node} {s s' : State} {n : Node}
    (h : word source w node s = .done n s') : s.pos < s'.pos ∧ s'.depth = s.depth := by
  have hletters : 0 < (utf8 w.name.toList).length := by cases w <;> decide
  simp only [word] at h
  split at h
  · cases h
  · split at h
    · cases h
      exact ⟨by rw [State.moveTo_pos]; omega, rfl⟩
    · cases h

/-- The byte that a number begins with is the first of its run. -/
theorem moves_number {s s' : State} {b : UInt8} {n : Node} (hpeek : peek source s = some b)
    (hb : isNumberByte b = true) (h : number source s = .done n s') :
    s.pos < s'.pos ∧ s'.depth = s.depth := by
  obtain ⟨u, last, hrun, h⟩ := Outcome.andThen_eq_done_iff.mp h
  obtain ⟨text, after, hcut, h⟩ := Outcome.andThen_eq_done_iff.mp h
  have hturn : runTurn source isNumberByte () s = .again () (s.moveTo (s.pos + 1)) := by
    rw [runTurn, hpeek]
    exact if_pos hb
  rw [skipRun, loop_again hturn (Nat.lt_succ_self _) (pos_lt_of_peek hpeek)] at hrun
  have honward := onward_skipRun hrun
  obtain ⟨-, rfl⟩ := cut_eq_done hcut
  split at h
  · cases h
    exact ⟨honward.1, honward.2⟩
  · cases h

section Parts

variable {α : Type} {closing : UInt8} {due : SyntaxCause} {part : State → Outcome α}

/-- What one turn over the parts can be, if it does not fail: the part is read, and a comma or the
    closing bracket after it. -/
theorem partsTurn_cases (hpart : Moves source part) {parts parts' : List α} {s s' : State}
    (h : partsTurn source closing due part parts s = .again parts' s' ∨
      partsTurn source closing due part parts s = .leave (.done parts' s')) :
    s.pos < (utf8 source).length ∧ s.pos < s'.pos ∧ s'.depth = s.depth := by
  unfold partsTurn at h
  simp only at h
  split at h
  · rename_i a last hread
    obtain ⟨u, first, hfirst, hread⟩ := Outcome.andThen_eq_done_iff.mp hread
    obtain ⟨a', next, hnext, hread⟩ := Outcome.andThen_eq_done_iff.mp hread
    obtain ⟨u', last', hlast, hread⟩ := Outcome.andThen_eq_done_iff.mp hread
    cases hread
    have hbefore := onward_skipBlanks hfirst
    obtain ⟨hlimit, hmoved, hdepth⟩ := hpart hnext
    have hafter := onward_skipBlanks hlast
    have hs' : s' = last.moveTo (last.pos + 1) := by
      rcases h with h | h
      · split at h
        · cases h
          rfl
        · split at h <;> cases h
      · split at h
        · cases h
        · split at h
          · cases h
            rfl
          · cases h
    subst hs'
    refine ⟨hbefore.1.trans_lt hlimit, ?_, ?_⟩
    · have hle := hbefore.1
      have hle' := hafter.1
      rw [State.moveTo_pos]
      omega
    · exact hafter.2.trans (hdepth.trans hbefore.2)
  · rcases h with h | h <;> cases h
  · rcases h with h | h <;> cases h

theorem advancing_partsTurn (hpart : Moves source part) :
    Advancing (partsTurn source closing due part) :=
  fun _ _ _ _ h => (partsTurn_cases hpart (.inl h)).2.1

theorem moves_bracketed (hpart : Moves source part) {node : List α → Span → Node} {s s' : State}
    {n : Node} (h : bracketed source closing due part node s = .done n s') :
    s.pos < s'.pos ∧ s'.depth = s.depth := by
  obtain ⟨parts, last, hbetween, h⟩ := Outcome.andThen_eq_done_iff.mp h
  obtain ⟨u, first, hfirst, hbetween⟩ := Outcome.andThen_eq_done_iff.mp hbetween
  cases h
  have hbefore := onward_skipBlanks hfirst
  have hlast : first.Onward s' := by
    split at hbetween
    · cases hbetween
      exact first.onward_moveTo 1
    · refine onward_loop (fun acc acc' s s' hturn => ?_) (fun acc a s s' hturn => ?_) hbetween
      · obtain ⟨-, hmoved, hdepth⟩ := partsTurn_cases hpart (.inl hturn)
        exact ⟨hmoved.le, hdepth⟩
      · obtain ⟨-, hmoved, hdepth⟩ := partsTurn_cases hpart (.inr hturn)
        exact ⟨hmoved.le, hdepth⟩
  exact ⟨(hbefore.trans hlast).1, (hbefore.trans hlast).2⟩

end Parts

theorem moves_member {element : State → Outcome Node} (helement : Moves source element) :
    Moves source (member source element) := by
  intro s s' m h
  unfold member at h
  split at h
  · rename_i hquote
    obtain ⟨key, afterKey, hkey, h⟩ := Outcome.andThen_eq_done_iff.mp h
    obtain ⟨u, atColon, hskip, h⟩ := Outcome.andThen_eq_done_iff.mp h
    have hmoved := moves_string hkey
    have hbefore := onward_skipBlanks hskip
    split at h
    · obtain ⟨u', atValue, hskip', h⟩ := Outcome.andThen_eq_done_iff.mp h
      obtain ⟨value, last, hvalue, h⟩ := Outcome.andThen_eq_done_iff.mp h
      cases h
      have hafter := (atColon.onward_moveTo 1).trans (onward_skipBlanks hskip')
      obtain ⟨-, hmoved', hdepth⟩ := helement hvalue
      have hbetween := hbefore.trans hafter
      exact ⟨pos_lt_of_peek hquote, hmoved.1.trans (hbetween.1.trans_lt hmoved'),
        hdepth.trans (hbetween.2.trans hmoved.2)⟩
    · cases h
  · cases h

theorem moves_deeper {α : Type} {inner : State → Outcome α}
    (hinner : ∀ ⦃s s' : State⦄ ⦃a : α⦄, inner s = .done a s' →
      s.pos < s'.pos ∧ s'.depth = s.depth)
    {s s' : State} {a : α} (h : deeper source inner s = .done a s') :
    s.pos < s'.pos ∧ s'.depth = s.depth := by
  unfold deeper at h
  split at h
  · cases h
  · split at h
    · rename_i a' last hread
      cases h
      obtain ⟨hmoved, hdepth⟩ := hinner hread
      exact ⟨hmoved, Nat.sub_eq_of_eq_add hdepth⟩
    · cases h
    · cases h

/-- **A value moves the position**, if the values in it do. -/
theorem moves_dispatch {element : State → Outcome Node} (helement : Moves source element) :
    Moves source (dispatch source element) := by
  intro s s' node h
  unfold dispatch at h
  split at h
  · cases h
  · rename_i b hpeek
    refine ⟨pos_lt_of_peek hpeek, ?_⟩
    split at h
    · exact moves_deeper (fun _ _ _ => moves_bracketed (moves_member helement)) h
    · split at h
      · exact moves_deeper (fun _ _ _ => moves_bracketed helement) h
      · split at h
        · obtain ⟨token, last, htoken, h⟩ := Outcome.andThen_eq_done_iff.mp h
          cases h
          exact moves_string htoken
        · split at h
          · exact moves_word h
          · split at h
            · exact moves_word h
            · split at h
              · exact moves_word h
              · split at h
                · rename_i hnumber
                  refine moves_number hpeek ?_ h
                  rcases hnumber with rfl | hdigit
                  · decide
                  · rw [isNumberByte, hdigit, Bool.or_true]
                · cases h

/-- **A value leaves the position further on, and the depth as it was**, whatever the state. -/
theorem moves_value (source : List Char) (frames : Nat) : Moves source (value source frames) := by
  induction frames with
  | zero => exact moves_dispatch fun s s' a h => by cases h
  | succ frames ih => exact moves_dispatch ih

end ByteReader

end SchemaCompiler
