/-
  File:      SchemaCompiler/Proofs/Text/Runs.lean
  Subject:   Longest runs of characters.

  A scanner takes the longest run of characters with a property off a text. `Stops p rest` says
  that a run ends before `rest`; then the run that a derivation chose is the one a scanner takes.
-/
import Mathlib.Data.List.TakeWhile

namespace SchemaCompiler

/-- The text is empty or begins with a character without the property. -/
def Stops (p : Char → Bool) (rest : List Char) : Prop := ∀ c ∈ rest.head?, p c = false

@[simp] theorem stops_nil (p : Char → Bool) : Stops p [] := by simp [Stops]

@[simp] theorem stops_cons {p : Char → Bool} {c : Char} {rest : List Char} :
    Stops p (c :: rest) ↔ p c = false := by
  simp [Stops]

/-- What stops a run stops every smaller one. -/
theorem Stops.mono {p q : Char → Bool} {rest : List Char} (h : Stops p rest)
    (hpq : ∀ c, q c = true → p c = true) : Stops q rest := by
  intro c hc
  cases hq : q c with
  | false => rfl
  | true =>
    have hp := h c hc
    rw [hpq c hq] at hp
    cases hp

theorem Stops.takeWhile_eq {p : Char → Bool} {rest : List Char} (h : Stops p rest) :
    rest.takeWhile p = [] := by
  cases rest with
  | nil => rfl
  | cons c rest => rw [List.takeWhile_cons_of_neg (by simp [stops_cons.mp h])]

theorem Stops.dropWhile_eq {p : Char → Bool} {rest : List Char} (h : Stops p rest) :
    rest.dropWhile p = rest := by
  cases rest with
  | nil => rfl
  | cons c rest => rw [List.dropWhile_cons_of_neg (by simp [stops_cons.mp h])]

/-- Only the first character matters. -/
theorem Stops.congr {p : Char → Bool} {rest other : List Char} (h : Stops p rest)
    (hhead : other.head? = rest.head?) : Stops p other := by
  intro c hc
  rw [hhead] at hc
  exact h c hc

/-- After a longest run the text stops. -/
theorem stops_dropWhile (p : Char → Bool) (text : List Char) : Stops p (text.dropWhile p) := by
  induction text with
  | nil => exact stops_nil p
  | cons c text ih =>
    by_cases hc : p c = true
    · rw [List.dropWhile_cons_of_pos hc]
      exact ih
    · rw [List.dropWhile_cons_of_neg hc]
      exact stops_cons.mpr (Bool.not_eq_true _ ▸ hc)

theorem head?_append_congr (front : List Char) {rest other : List Char}
    (hhead : other.head? = rest.head?) : (front ++ other).head? = (front ++ rest).head? := by
  rw [List.head?_append, List.head?_append, hhead]

/-- The run that ends where the text stops is the longest one. -/
theorem takeWhile_run {p : Char → Bool} {run rest : List Char} (hrun : ∀ c ∈ run, p c = true)
    (hstop : Stops p rest) : (run ++ rest).takeWhile p = run := by
  rw [List.takeWhile_append_of_pos hrun, hstop.takeWhile_eq, List.append_nil]

/-- A run that is followed by a stop is dropped as a whole. -/
theorem dropWhile_run {p : Char → Bool} {run rest : List Char} (hrun : ∀ c ∈ run, p c = true)
    (hstop : Stops p rest) : (run ++ rest).dropWhile p = rest := by
  rw [List.dropWhile_append_of_pos hrun, hstop.dropWhile_eq]

/-- So a text splits into such a run and a rest in one way only. -/
theorem run_append_inj {p : Char → Bool} {run run' rest rest' : List Char}
    (hrun : ∀ c ∈ run, p c = true) (hrun' : ∀ c ∈ run', p c = true) (hstop : Stops p rest)
    (hstop' : Stops p rest') (h : run ++ rest = run' ++ rest') : run = run' ∧ rest = rest' := by
  have htake := congrArg (List.takeWhile p) h
  have hdrop := congrArg (List.dropWhile p) h
  rw [takeWhile_run hrun hstop, takeWhile_run hrun' hstop'] at htake
  rw [dropWhile_run hrun hstop, dropWhile_run hrun' hstop'] at hdrop
  exact ⟨htake, hdrop⟩

end SchemaCompiler
