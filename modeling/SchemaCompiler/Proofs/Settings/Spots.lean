/-
  File:      SchemaCompiler/Proofs/Settings/Spots.lean
  Subject:   What the readers of a settings file take off the text.

  A reader that succeeds gives a value and leaves the rest of the text (`Takes`); where the rest
  stands is of no matter. One lemma for each reader says exactly which texts it takes: words,
  strings, the marks between members and between elements.
-/
import SchemaCompiler.Proofs.Json.Readers
import SchemaCompiler.Settings.Reader

namespace SchemaCompiler

namespace Settings

open Grammar

variable {α β : Type}

/-! ## 1. Taking -/

/-- The reader gives `a` and leaves `rest`. -/
def Takes (read : SpotReader α) (s : Spot) (a : α) (rest : List Char) : Prop :=
  ∃ place, read s = .ok (a, ⟨rest, place⟩)

theorem takes_of_eq {read : SpotReader α} {s s' : Spot} {a : α} (h : read s = .ok (a, s')) :
    Takes read s a s'.rest :=
  ⟨s'.place, h⟩

theorem bind_eq_ok_iff {ε : Type} {x : Except ε α} {f : α → Except ε β} {b : β} :
    (x >>= f) = .ok b ↔ ∃ a, x = .ok a ∧ f a = .ok b := by
  cases x with
  | error e => exact ⟨fun h => (nomatch h), fun ⟨_, h, _⟩ => (nomatch h)⟩
  | ok a =>
    refine ⟨fun h => ⟨a, rfl, h⟩, fun h => ?_⟩
    obtain ⟨a', ha, hf⟩ := h
    cases ha
    exact hf

theorem mapError_eq_ok_iff {ε ε' : Type} {x : Except ε α} {f : ε → ε'} {a : α} :
    x.mapError f = .ok a ↔ x = .ok a := by
  cases x <;> simp [Except.mapError]

namespace Spot

variable {s : Spot} {blanks rest : List Char}

/-- What is skipped are blanks. -/
theorem skipBlanks_sound (s : Spot) :
    ∃ blanks, Blanks blanks ∧ s.rest = blanks ++ s.skipBlanks.rest := by
  refine ⟨s.rest.takeWhile Cursor.isBlank, fun c hc => ?_, ?_⟩
  · exact Cursor.isBlank_iff.mp (List.mem_takeWhile_imp hc)
  · show s.rest = s.rest.takeWhile Cursor.isBlank ++ s.rest.drop _
    exact (List.prefix_iff_eq_append.mp (List.takeWhile_prefix _)).symm

/-- All blanks are skipped. -/
theorem skipBlanks_complete (h : s.rest = blanks ++ rest) (hblanks : Blanks blanks)
    (hstop : Stops Cursor.isBlank rest) : s.skipBlanks.rest = rest := by
  show s.rest.drop (s.rest.takeWhile Cursor.isBlank).length = rest
  rw [h, takeWhile_run (Cursor.isBlank_of_blanks hblanks) hstop, List.drop_left]

/-- The blanks end at a character that is none. -/
theorem skipBlanks_eq_cons_iff {c : Char} (hc : Cursor.isBlank c = false) :
    s.skipBlanks.rest = c :: rest ↔ ∃ blanks, Blanks blanks ∧ s.rest = blanks ++ c :: rest := by
  constructor
  · intro h
    obtain ⟨blanks, hblanks, hrest⟩ := s.skipBlanks_sound
    exact ⟨blanks, hblanks, h ▸ hrest⟩
  · intro h
    obtain ⟨blanks, hblanks, hrest⟩ := h
    exact skipBlanks_complete hrest hblanks (stops_cons.mpr hc)

theorem isBlank_of_skipBlanks {c : Char} (h : s.skipBlanks.rest = c :: rest) :
    Cursor.isBlank c = false := by
  have hdrop : s.skipBlanks.rest = s.rest.dropWhile Cursor.isBlank := by
    have hsplit := List.takeWhile_append_dropWhile (p := Cursor.isBlank) (l := s.rest)
    have hword := List.prefix_iff_eq_append.mp
      (List.takeWhile_prefix Cursor.isBlank (l := s.rest))
    exact List.append_cancel_left (hword.trans hsplit.symm)
  have hhead := List.head?_dropWhile_not Cursor.isBlank s.rest
  rw [← hdrop, h] at hhead
  exact hhead

/-- The spot before a given rest of the text. -/
theorem advance_to {front : List Char} (h : s.rest = front ++ rest) :
    (s.advance (s.rest.length - rest.length)).rest = rest := by
  show s.rest.drop (s.rest.length - rest.length) = rest
  rw [h, List.length_append, Nat.add_sub_cancel, List.drop_left]

theorem eq_mk (h : s.rest = rest) : s = ⟨rest, s.place⟩ := by rw [← h]

theorem advance_one {c : Char} (h : s.rest = c :: rest) : (s.advance 1).rest = rest := by
  show s.rest.drop 1 = rest
  rw [h, List.drop_one, List.tail_cons]

end Spot

/-! ## 2. Single values -/

section Values

variable {s : Spot} {rest : List Char}

/-- Letters are taken one by one. -/
theorem takes_readLetters {letters : List Char} :
    Takes (readLetters letters) s () rest ↔ s.rest = letters ++ rest := by
  induction letters generalizing s with
  | nil =>
    constructor
    · intro h
      obtain ⟨place, h⟩ := h
      cases h
      rfl
    · intro h
      exact ⟨s.place, congrArg (fun text => Except.ok ((), Spot.mk text s.place)) h⟩
  | cons letter letters ih =>
    unfold Takes readLetters
    cases hrest : s.rest with
    | nil => simp
    | cons c tail =>
      by_cases hc : c = letter
      · have htail := ih (s := s.advance 1)
        rw [s.advance_one hrest] at htail
        simp only [hc, ↓reduceIte, List.cons_append, List.cons.injEq, true_and]
        exact htail
      · simp [hc]

theorem takes_readWord {word : Word} {found found' : Found} :
    Takes (readWord word found) s found' rest ↔
      found' = found ∧ s.rest = word.name.toList ++ rest := by
  rw [← takes_readLetters]
  unfold Takes readWord
  simp only [bind_eq_ok_iff]
  constructor
  · intro h
    obtain ⟨place, ⟨_, s'⟩, hletters, h⟩ := h
    cases h
    exact ⟨rfl, place, hletters⟩
  · intro h
    obtain ⟨rfl, place, hletters⟩ := h
    exact ⟨place, _, hletters, rfl⟩

/-- A string after its opening quote. -/
theorem takes_readString {first : Char} {tail : List Char} {text : String}
    (hs : s.rest = first :: tail) :
    Takes readString s text rest ↔
      ∃ body decoded, tail = body ++ '"' :: rest ∧ StringBody body decoded ∧
        text = String.ofList decoded := by
  have hsplit : ∀ {body left : List Char}, tail = body ++ '"' :: left →
      (s.advance (s.rest.length - left.length)).rest = left := by
    intro body left htail
    have hfront : s.rest = (first :: (body ++ ['"'])) ++ left := by simp [hs, htail]
    exact s.advance_to hfront
  unfold Takes readString
  constructor
  · intro h
    obtain ⟨place, h⟩ := h
    rw [hs, List.drop_one, List.tail_cons, ← hs] at h
    split at h
    · cases h
    · rename_i decoded left hunquote
      obtain ⟨body, htail, hbody⟩ := unquote_eq_ok_iff.mp hunquote
      injection h with h
      injection h with htext hspot
      rw [← hsplit htail, hspot] at htail
      exact ⟨body, decoded, htail, hbody, htext.symm⟩
  · intro h
    obtain ⟨body, decoded, htail, hbody, rfl⟩ := h
    have hunquote := unquote_complete hbody (s.place.skip 1) rest
    rw [← htail] at hunquote
    rw [hs, List.drop_one, List.tail_cons, hunquote, ← hs]
    refine ⟨(s.advance (s.rest.length - rest.length)).place, ?_⟩
    exact congrArg (fun left => Except.ok (String.ofList decoded, Spot.mk left _)) (hsplit htail)

/-- A number is found as a number, whatever its value. -/
theorem isNumber_of_readNumber {s' : Spot} {found : Found} (h : readNumber s = .ok (found, s')) :
    ∃ n, found = .number n := by
  unfold readNumber at h
  split at h
  · cases h
  · split at h
    · rename_i n _
      cases h
      exact ⟨n, rfl⟩
    · cases h

/-- A value is found first and then asked for. -/
theorem takes_readAs {expected : String} {pick : Found → Option α} {a : α} :
    Takes (readAs expected pick) s a rest ↔
      ∃ found, Takes readFound s.skipBlanks found rest ∧ pick found = some a := by
  unfold Takes readAs
  simp only [bind_eq_ok_iff]
  constructor
  · intro h
    obtain ⟨place, ⟨found, s'⟩, hfound, h⟩ := h
    split at h
    · rename_i value hpick
      cases h
      exact ⟨found, ⟨place, hfound⟩, hpick⟩
    · cases h
  · intro h
    obtain ⟨found, ⟨place, hfound⟩, hpick⟩ := h
    refine ⟨place, _, hfound, ?_⟩
    simp only [hpick]

/-- The word of a truth value. -/
def boolWord : Bool → Word
  | true => .true
  | false => .false

/-- The values that come next, each with its text; of a number, an array or an object only the kind
    is of interest. -/
theorem found_of_readFound {found : Found} (h : Takes readFound s found rest) :
    found = .null ∨ (∃ b, found = .boolean b ∧ s.rest = (boolWord b).name.toList ++ rest) ∨
      (∃ n, found = .number n) ∨
      (∃ body decoded, found = .string (String.ofList decoded) ∧
        s.rest = '"' :: (body ++ '"' :: rest) ∧ StringBody body decoded) ∨
      found = .sequence ∨ found = .map := by
  obtain ⟨place, h⟩ := h
  unfold readFound at h
  split at h
  · cases h
  · rename_i c tail hrest
    split at h
    · exact .inl (takes_readWord.mp ⟨place, h⟩).1
    · split at h
      · exact .inr (.inl ⟨true, takes_readWord.mp ⟨place, h⟩⟩)
      · split at h
        · exact .inr (.inl ⟨false, takes_readWord.mp ⟨place, h⟩⟩)
        · split at h
          · exact .inr (.inr (.inl (isNumber_of_readNumber h)))
          · split at h
            · rename_i hquote
              subst hquote
              obtain ⟨⟨text, s'⟩, hstring, h⟩ := bind_eq_ok_iff.mp h
              cases h
              obtain ⟨body, decoded, rfl, hbody, rfl⟩ :=
                (takes_readString hrest).mp ⟨place, hstring⟩
              exact .inr (.inr (.inr (.inl ⟨body, decoded, rfl, hrest, hbody⟩)))
            · split at h
              · cases h
                exact .inr (.inr (.inr (.inr (.inl rfl))))
              · split at h
                · cases h
                  exact .inr (.inr (.inr (.inr (.inr rfl))))
                · cases h

theorem takes_readBoolean {b : Bool} :
    Takes readBoolean s b rest ↔
      ∃ blanks, Blanks blanks ∧ s.rest = blanks ++ ((boolWord b).name.toList ++ rest) := by
  unfold readBoolean
  rw [takes_readAs]
  constructor
  · intro h
    obtain ⟨found, hfound, hpick⟩ := h
    obtain ⟨blanks, hblanks, hrest⟩ := s.skipBlanks_sound
    rcases found_of_readFound hfound with
      rfl | ⟨b', rfl, hword⟩ | ⟨n, rfl⟩ | ⟨_, _, rfl, _⟩ | rfl | rfl
    · cases hpick
    · cases hpick
      exact ⟨blanks, hblanks, hword ▸ hrest⟩
    all_goals cases hpick
  · intro h
    obtain ⟨blanks, hblanks, hrest⟩ := h
    refine ⟨.boolean b, ?_, rfl⟩
    cases b with
    | true =>
      have hskip := s.skipBlanks_complete hrest hblanks (stops_cons.mpr (by decide))
      obtain ⟨place, hword⟩ := takes_readWord.mpr ⟨rfl, hskip⟩
      refine ⟨place, ?_⟩
      unfold readFound
      rw [hskip]
      exact hword
    | false =>
      have hskip := s.skipBlanks_complete hrest hblanks (stops_cons.mpr (by decide))
      obtain ⟨place, hword⟩ := takes_readWord.mpr ⟨rfl, hskip⟩
      refine ⟨place, ?_⟩
      unfold readFound
      rw [hskip]
      exact hword

/-- A text is a string after blanks, decoded. -/
theorem takes_readText {text : String} :
    Takes readText s text rest ↔
      ∃ blanks body decoded, Blanks blanks ∧ s.rest = blanks ++ '"' :: (body ++ '"' :: rest) ∧
        StringBody body decoded ∧ text = String.ofList decoded := by
  unfold readText
  rw [takes_readAs]
  constructor
  · intro h
    obtain ⟨found, hfound, hpick⟩ := h
    obtain ⟨blanks, hblanks, hrest⟩ := s.skipBlanks_sound
    rcases found_of_readFound hfound with
      rfl | ⟨_, rfl, _⟩ | ⟨_, rfl⟩ | ⟨body, decoded, rfl, htext, hbody⟩ | rfl | rfl
    · cases hpick
    · cases hpick
    · cases hpick
    · cases hpick
      exact ⟨blanks, body, decoded, hblanks, htext ▸ hrest, hbody, rfl⟩
    all_goals cases hpick
  · intro h
    obtain ⟨blanks, body, decoded, hblanks, hrest, hbody, rfl⟩ := h
    have hskip := s.skipBlanks_complete hrest hblanks (stops_cons.mpr (by decide))
    obtain ⟨place, hstring⟩ := (takes_readString hskip).mpr ⟨body, decoded, rfl, hbody, rfl⟩
    refine ⟨.string (String.ofList decoded), ⟨place, ?_⟩, rfl⟩
    unfold readFound
    rw [hskip]
    exact bind_eq_ok_iff.mpr ⟨_, hstring, rfl⟩

end Values

/-! ## 3. Marks -/

section Marks

variable {s : Spot} {rest : List Char}

/-- What stands before a part: blanks, and a comma unless it is the first. -/
inductive Lead : Bool → List Char → Prop
  | first {before : List Char} : Blanks before → Lead true before
  | next {after before : List Char} : Blanks after → Blanks before →
      Lead false (after ++ ',' :: before)

/-- Past a comma and the blanks on both sides of it. -/
theorem exists_lead_of_comma {tail : List Char} (hcomma : s.skipBlanks.rest = ',' :: tail) :
    ∃ lead, Lead false lead ∧ s.rest = lead ++ (s.skipBlanks.advance 1).skipBlanks.rest := by
  obtain ⟨after, hafter, hs⟩ := s.skipBlanks_sound
  obtain ⟨before, hbefore, hnext⟩ := (s.skipBlanks.advance 1).skipBlanks_sound
  rw [s.skipBlanks.advance_one hcomma] at hnext
  refine ⟨after ++ ',' :: before, .next hafter hbefore, ?_⟩
  rw [List.append_assoc, List.cons_append]
  exact hnext ▸ hcomma ▸ hs

/-- Between two members a comma stands, with blanks around it. -/
theorem skipBlanks_of_lead {lead tail : List Char} {c : Char} (hlead : Lead false lead)
    (hs : s.rest = lead ++ c :: tail) (hblank : Cursor.isBlank c = false) :
    (∃ more, s.skipBlanks.rest = ',' :: more) ∧
      (s.skipBlanks.advance 1).skipBlanks.rest = c :: tail := by
  cases hlead with
  | @next after before hafter hbefore =>
    rw [List.append_assoc, List.cons_append] at hs
    have hcomma := s.skipBlanks_complete hs hafter (stops_cons.mpr (by decide))
    exact ⟨⟨_, hcomma⟩, Spot.skipBlanks_complete (s.skipBlanks.advance_one hcomma) hbefore
      (stops_cons.mpr hblank)⟩

/-- All that can be found before a member: the end of the object, or a quote after the lead. -/
theorem hasMember_cases {first more : Bool} {s' : Spot} (h : hasMember first s = .ok (more, s')) :
    (more = false ∧ s' = s.skipBlanks ∧ ∃ tail, s'.rest = '\x7d' :: tail) ∨
      more = true ∧ (∃ tail, s'.rest = '"' :: tail) ∧
        ∃ lead, Lead first lead ∧ s.rest = lead ++ s'.rest := by
  cases first with
  | true =>
    obtain ⟨blanks, hblanks, hs⟩ := s.skipBlanks_sound
    simp only [hasMember, ↓reduceIte] at h
    split at h
    · cases h
    · rename_i tail hrest
      cases h
      exact .inl ⟨rfl, rfl, tail, hrest⟩
    · rename_i c tail _ hrest
      split at h
      · rename_i hc
        cases h
        exact .inr ⟨rfl, ⟨tail, hc ▸ hrest⟩, blanks, .first hblanks, hs⟩
      · cases h
  | false =>
    simp only [hasMember, Bool.false_eq_true, ↓reduceIte] at h
    split at h
    · cases h
    · rename_i tail hrest
      cases h
      exact .inl ⟨rfl, rfl, tail, hrest⟩
    · rename_i c tail _ hrest
      split at h
      · rename_i hc
        subst hc
        split at h
        · cases h
        · rename_i tail' hquote
          cases h
          exact .inr ⟨rfl, ⟨tail', hquote⟩, exists_lead_of_comma hrest⟩
        · cases h
        · cases h
      · cases h

theorem takes_hasMember_false {first : Bool} :
    Takes (hasMember first) s false rest ↔
      ∃ tail, rest = '\x7d' :: tail ∧ ∃ blanks, Blanks blanks ∧ s.rest = blanks ++ rest := by
  constructor
  · intro h
    obtain ⟨place, h⟩ := h
    obtain ⟨-, hspot, tail, hrest⟩ | ⟨habsurd, -⟩ := hasMember_cases h
    · obtain ⟨blanks, hblanks, hs⟩ := s.skipBlanks_sound
      rw [← hspot] at hs
      exact ⟨tail, hrest, blanks, hblanks, hs⟩
    · cases habsurd
  · intro h
    obtain ⟨tail, rfl, blanks, hblanks, hs⟩ := h
    have hskip := s.skipBlanks_complete hs hblanks (stops_cons.mpr (by decide))
    refine ⟨s.skipBlanks.place, ?_⟩
    simp only [hasMember, hskip]
    exact congrArg (fun s => Except.ok (false, s)) (Spot.eq_mk hskip)

/-- Another member is announced by a quote, after a comma if it is not the first. -/
theorem takes_hasMember_true {first : Bool} :
    Takes (hasMember first) s true rest ↔
      ∃ tail, rest = '"' :: tail ∧ ∃ lead, Lead first lead ∧ s.rest = lead ++ rest := by
  constructor
  · intro h
    obtain ⟨place, h⟩ := h
    obtain ⟨habsurd, -⟩ | ⟨-, ⟨tail, hrest⟩, hlead⟩ := hasMember_cases h
    · cases habsurd
    · exact ⟨tail, hrest, hlead⟩
  · intro h
    obtain ⟨tail, rfl, lead, hlead, hs⟩ := h
    cases first with
    | true =>
      obtain ⟨hbefore⟩ := hlead
      have hskip := s.skipBlanks_complete hs hbefore (stops_cons.mpr (by decide))
      refine ⟨s.skipBlanks.place, ?_⟩
      simp only [hasMember, hskip]
      exact congrArg (fun s => Except.ok (true, s)) (Spot.eq_mk hskip)
    | false =>
      obtain ⟨⟨more, hcomma⟩, hnext⟩ := skipBlanks_of_lead hlead hs (by decide)
      refine ⟨(s.skipBlanks.advance 1).skipBlanks.place, ?_⟩
      simp only [hasMember, hcomma, hnext]
      exact congrArg (fun s => Except.ok (true, s)) (Spot.eq_mk hnext)

/-- There is no further key at the closing brace. -/
theorem takes_readKey_none {first : Bool} :
    Takes (readKey first) s none rest ↔
      ∃ blanks, Blanks blanks ∧ s.rest = blanks ++ '\x7d' :: rest := by
  constructor
  · intro h
    obtain ⟨place, h⟩ := h
    obtain ⟨⟨more, s'⟩, hmember, h⟩ := bind_eq_ok_iff.mp h
    cases more with
    | true =>
      obtain ⟨_, _, h⟩ := bind_eq_ok_iff.mp h
      cases h
    | false =>
      obtain ⟨tail, htail, blanks, hblanks, hs⟩ := takes_hasMember_false.mp (takes_of_eq hmember)
      cases h
      refine ⟨blanks, hblanks, ?_⟩
      show s.rest = blanks ++ '\x7d' :: (s'.advance 1).rest
      rw [s'.advance_one htail, ← htail]
      exact hs
  · intro h
    obtain ⟨blanks, hblanks, hs⟩ := h
    obtain ⟨place, hmember⟩ := takes_hasMember_false.mpr ⟨rest, rfl, blanks, hblanks, hs⟩
    exact ⟨_, bind_eq_ok_iff.mpr ⟨_, hmember, rfl⟩⟩

/-- A key is a string, after a comma if it is not the first. -/
theorem takes_readKey_some {first : Bool} {key : String} :
    Takes (readKey first) s (some key) rest ↔
      ∃ lead body decoded, Lead first lead ∧ s.rest = lead ++ '"' :: (body ++ '"' :: rest) ∧
        StringBody body decoded ∧ key = String.ofList decoded := by
  constructor
  · intro h
    obtain ⟨place, h⟩ := h
    obtain ⟨⟨more, s'⟩, hmember, h⟩ := bind_eq_ok_iff.mp h
    cases more with
    | true =>
      obtain ⟨tail, htail, lead, hlead, hs⟩ := takes_hasMember_true.mp (takes_of_eq hmember)
      obtain ⟨⟨text, s''⟩, hstring, h⟩ := bind_eq_ok_iff.mp h
      cases h
      obtain ⟨body, decoded, rfl, hbody, rfl⟩ := (takes_readString htail).mp ⟨place, hstring⟩
      exact ⟨lead, body, decoded, hlead, htail ▸ hs, hbody, rfl⟩
    | false => cases h
  · intro h
    obtain ⟨lead, body, decoded, hlead, hs, hbody, rfl⟩ := h
    obtain ⟨place, hmember⟩ := takes_hasMember_true.mpr ⟨_, rfl, lead, hlead, hs⟩
    obtain ⟨place', hstring⟩ := (takes_readString (s := ⟨'"' :: (body ++ '"' :: rest), place⟩)
      rfl).mpr ⟨body, decoded, rfl, hbody, rfl⟩
    exact ⟨place', bind_eq_ok_iff.mpr ⟨_, hmember, bind_eq_ok_iff.mpr ⟨_, hstring, rfl⟩⟩⟩

theorem readColon_eq_ok_iff :
    (∃ place, readColon s = .ok ⟨rest, place⟩) ↔
      ∃ blanks, Blanks blanks ∧ s.rest = blanks ++ ':' :: rest := by
  rw [← s.skipBlanks_eq_cons_iff (by decide)]
  constructor
  · intro h
    obtain ⟨place, h⟩ := h
    simp only [readColon] at h
    split at h
    · cases h
    · rename_i tail hcolon
      cases h
      show s.skipBlanks.rest = ':' :: (s.skipBlanks.advance 1).rest
      rw [s.skipBlanks.advance_one hcolon, hcolon]
    · cases h
  · intro h
    refine ⟨(s.skipBlanks.advance 1).place, ?_⟩
    simp only [readColon, h]
    exact congrArg Except.ok (Spot.eq_mk (s.skipBlanks.advance_one h))

/-- All that can be found before an element: the end of the list, or what else follows the lead. -/
theorem hasElement_cases {first more : Bool} {s' : Spot}
    (h : hasElement first s = .ok (more, s')) :
    (more = false ∧ s' = s.skipBlanks ∧ ∃ tail, s'.rest = ']' :: tail) ∨
      more = true ∧ (∃ c tail, s'.rest = c :: tail ∧ Cursor.isBlank c = false ∧ c ≠ ']') ∧
        ∃ lead, Lead first lead ∧ s.rest = lead ++ s'.rest := by
  cases first with
  | true =>
    obtain ⟨blanks, hblanks, hs⟩ := s.skipBlanks_sound
    simp only [hasElement, ↓reduceIte] at h
    split at h
    · cases h
    · rename_i tail hrest
      cases h
      exact .inl ⟨rfl, rfl, tail, hrest⟩
    · rename_i c tail hc hrest
      cases h
      exact .inr ⟨rfl, ⟨c, tail, hrest, Spot.isBlank_of_skipBlanks hrest, hc⟩, blanks,
        .first hblanks, hs⟩
  | false =>
    simp only [hasElement, Bool.false_eq_true, ↓reduceIte] at h
    split at h
    · cases h
    · rename_i tail hrest
      cases h
      exact .inl ⟨rfl, rfl, tail, hrest⟩
    · rename_i _ tail _ hrest
      split at h
      · rename_i hcomma
        subst hcomma
        split at h
        · cases h
        · cases h
        · rename_i hnil hc
          cases hfirst : (s.skipBlanks.advance 1).skipBlanks.rest with
          | nil => exact absurd hfirst hnil
          | cons c tail' =>
            cases h
            have hclose : c ≠ ']' := fun e => hc tail' (e ▸ hfirst)
            exact .inr ⟨rfl, ⟨c, tail', hfirst, Spot.isBlank_of_skipBlanks hfirst, hclose⟩,
              exists_lead_of_comma hrest⟩
      · cases h

theorem takes_hasElement_false {first : Bool} :
    Takes (hasElement first) s false rest ↔
      ∃ tail, rest = ']' :: tail ∧ ∃ blanks, Blanks blanks ∧ s.rest = blanks ++ rest := by
  constructor
  · intro h
    obtain ⟨place, h⟩ := h
    obtain ⟨-, hspot, tail, hrest⟩ | ⟨habsurd, -⟩ := hasElement_cases h
    · obtain ⟨blanks, hblanks, hs⟩ := s.skipBlanks_sound
      rw [← hspot] at hs
      exact ⟨tail, hrest, blanks, hblanks, hs⟩
    · cases habsurd
  · intro h
    obtain ⟨tail, rfl, blanks, hblanks, hs⟩ := h
    have hskip := s.skipBlanks_complete hs hblanks (stops_cons.mpr (by decide))
    refine ⟨s.skipBlanks.place, ?_⟩
    simp only [hasElement, hskip]
    exact congrArg (fun s => Except.ok (false, s)) (Spot.eq_mk hskip)

/-- The element is yet to be read; it cannot begin with a bracket that closes the list. -/
theorem takes_hasElement_true {first : Bool} :
    Takes (hasElement first) s true rest ↔
      ∃ c tail, rest = c :: tail ∧ Cursor.isBlank c = false ∧ c ≠ ']' ∧
        ∃ lead, Lead first lead ∧ s.rest = lead ++ rest := by
  constructor
  · intro h
    obtain ⟨place, h⟩ := h
    obtain ⟨habsurd, -⟩ | ⟨-, ⟨c, tail, hrest, hblank, hc⟩, hlead⟩ := hasElement_cases h
    · cases habsurd
    · exact ⟨c, tail, hrest, hblank, hc, hlead⟩
  · intro h
    obtain ⟨c, tail, rfl, hblank, hc, lead, hlead, hs⟩ := h
    cases first with
    | true =>
      obtain ⟨hbefore⟩ := hlead
      have hskip := s.skipBlanks_complete hs hbefore (stops_cons.mpr hblank)
      refine ⟨s.skipBlanks.place, ?_⟩
      simp only [hasElement, hskip, ↓reduceIte]
      exact congrArg (fun s => Except.ok (true, s)) (Spot.eq_mk hskip)
    | false =>
      obtain ⟨⟨more, hcomma⟩, hnext⟩ := skipBlanks_of_lead hlead hs hblank
      refine ⟨(s.skipBlanks.advance 1).skipBlanks.place, ?_⟩
      have hresult : hasElement false s = .ok (true, (s.skipBlanks.advance 1).skipBlanks) := by
        simp [hasElement, hcomma, hnext, hc]
      exact hresult.trans (congrArg (fun s => Except.ok (true, s)) (Spot.eq_mk hnext))

theorem readListEnd_eq_ok_iff :
    (∃ place, readListEnd s = .ok ⟨rest, place⟩) ↔
      ∃ blanks, Blanks blanks ∧ s.rest = blanks ++ ']' :: rest := by
  rw [← s.skipBlanks_eq_cons_iff (by decide)]
  constructor
  · intro h
    obtain ⟨place, h⟩ := h
    simp only [readListEnd] at h
    split at h
    · cases h
    · rename_i tail hbracket
      cases h
      show s.skipBlanks.rest = ']' :: (s.skipBlanks.advance 1).rest
      rw [s.skipBlanks.advance_one hbracket, hbracket]
    · cases h
    · cases h
  · intro h
    refine ⟨(s.skipBlanks.advance 1).place, ?_⟩
    simp only [readListEnd, h]
    exact congrArg Except.ok (Spot.eq_mk (s.skipBlanks.advance_one h))

end Marks

end Settings

end SchemaCompiler
