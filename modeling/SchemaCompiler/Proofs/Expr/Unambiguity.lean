/-
  File:      SchemaCompiler/Proofs/Expr/Unambiguity.lean
  Subject:   The text of a module tells what it is the text of.

  A text is `Legible` if it can neither be mistaken for another text of its sort nor leave open
  where it ends, whatever delimiter comes after it. Nothing is decoded: two texts that agree are
  compared part by part.

  * `Render.number_append_inj`, `Render.quote_append_inj`, `Render.singleQuoted_append_inj` --
    numbers and quoted texts end where they seem to end, whatever stands between the quotes;
  * `Form.ofChar` -- the first character of an argument tells its form;
  * `legible_list` -- legible parts with a separator between them are legible as a list;
  * `legible_item`, `legible_argument` -- by induction over the tree, all plain items are legible;
  * **`render_eq_iff`** -- modules with one text have the same imports and the same definitions.
-/
import SchemaCompiler.Expr.Render
import SchemaCompiler.Proofs.Json.Writing
import SchemaCompiler.Text.Letters

namespace SchemaCompiler

open Grammar

/-! ## 1. Plain definitions -/

/-- The whole numbers, of any size. -/
def Number.IsWhole : Number → Prop
  | .natural _ => True
  | .negative _ => True
  | .double _ => False

/-- The constants but for doubles, regular expressions and data. -/
inductive Constant.Plain : Constant → Prop where
  | undefined : Plain .undefined
  | null : Plain .null
  | boolean (b : Bool) : Plain (.boolean b)
  | number {n : Number} : n.IsWhole → Plain (.number n)
  | string (text : String) : Plain (.string text)

mutual

/-- Calls and plain constants, at every depth. -/
inductive Item.Plain : Item → Prop where
  | call {func : Func} {args : List Arg} : (∀ arg ∈ args, Arg.Plain arg) →
      Item.Plain (.call func args)
  | const {c : Constant} : c.Plain → Item.Plain (.const c)

/-- Plain items, and any records and arrays of them. -/
inductive Arg.Plain : Arg → Prop where
  | item {i : Item} : Item.Plain i → Arg.Plain (.item i)
  | record {fields : List (String × Item)} : (∀ field ∈ fields, Item.Plain field.2) →
      Arg.Plain (.record fields)
  | array {items : List Item} : (∀ i ∈ items, Item.Plain i) → Arg.Plain (.array items)

end

/-- A plain call under a name of letters, digits and underscores. -/
structure Definition.Plain (alphabet : Alphabet) (d : Definition) : Prop where
  name : ∀ c ∈ d.name.toList, alphabet.isAlphanumeric c = true ∨ c = '_'
  body : d.body.toItem.Plain

/-! ## 2. Texts and what comes after them -/

/-- What comes after an item. -/
def Delimiter (c : Char) : Prop := c = ',' ∨ c = ')' ∨ c = ']' ∨ c = '\n' ∨ c = ';'

instance (c : Char) : Decidable (Delimiter c) :=
  inferInstanceAs (Decidable (c = ',' ∨ c = ')' ∨ c = ']' ∨ c = '\n' ∨ c = ';'))

def Delimited (text : List Char) : Prop := ∃ c rest, text = c :: rest ∧ Delimiter c

/-- The text of `a` is that of nothing else in `S`, and it is clear where it ends. -/
def Legible {α : Type} (write : α → List Char) (S : α → Prop) (a : α) : Prop :=
  ∀ b, S b → ∀ rest rest', Delimited rest → Delimited rest' →
    write a ++ rest = write b ++ rest' → a = b ∧ rest = rest'

/-- Before a delimiter, a run of characters that are none is at its end. -/
theorem Delimited.stops {p : Char → Bool} {rest : List Char} (h : Delimited rest)
    (hp : ∀ c, Delimiter c → p c = false) : Stops p rest := by
  obtain ⟨c, rest, rfl, hc⟩ := h
  exact stops_cons.mpr (hp c hc)

section Lists

variable {α : Type} {write : α → List Char} {S : α → Prop} {separator : List Char}

theorem joinWith_cons (separator first : List Char) (parts : List (List Char)) :
    joinWith separator (first :: parts) = first ++ parts.flatMap (separator ++ ·) := by
  induction parts generalizing first with
  | nil => exact (List.append_nil first).symm
  | cons next parts ih =>
    rw [joinWith, ih next, List.flatMap_cons, List.append_assoc, List.append_assoc]
    exact List.cons_ne_nil next parts

theorem delimited_parts (hseparator : Delimited separator) (parts : List (List Char))
    {rest : List Char} (hrest : Delimited rest) :
    Delimited (parts.flatMap (separator ++ ·) ++ rest) := by
  obtain ⟨c, more, rfl, hc⟩ := hseparator
  cases parts with
  | nil => exact hrest
  | cons part parts => exact ⟨c, _, rfl, hc⟩

/-- Parts with a separator before each of them: the texts agree part by part, and end together
    since no separator stands where one of them ends. -/
theorem legible_parts (hseparator : Delimited separator) {as bs : List α}
    (has : ∀ a ∈ as, Legible write S a) (hbs : ∀ b ∈ bs, S b) {rest rest' : List Char}
    (hrest : Delimited rest) (hrest' : Delimited rest') (hend : ¬ separator <+: rest)
    (hend' : ¬ separator <+: rest')
    (h : (as.map write).flatMap (separator ++ ·) ++ rest =
      (bs.map write).flatMap (separator ++ ·) ++ rest') : as = bs ∧ rest = rest' := by
  induction as generalizing bs with
  | nil =>
    cases bs with
    | nil => exact ⟨rfl, h⟩
    | cons b bs =>
      rw [List.map_cons, List.flatMap_cons, List.append_assoc, List.append_assoc] at h
      exact absurd ⟨_, h.symm⟩ hend
  | cons a as ih =>
    cases bs with
    | nil =>
      rw [List.map_cons, List.flatMap_cons, List.append_assoc, List.append_assoc] at h
      exact absurd ⟨_, h⟩ hend'
    | cons b bs =>
      obtain ⟨ha, hmoreas⟩ := List.forall_mem_cons.mp has
      obtain ⟨hb, hmorebs⟩ := List.forall_mem_cons.mp hbs
      rw [List.map_cons, List.map_cons, List.flatMap_cons, List.flatMap_cons, List.append_assoc,
        List.append_assoc, List.append_assoc, List.append_assoc, List.append_cancel_left_eq] at h
      obtain ⟨rfl, hmore⟩ := ha b hb _ _ (delimited_parts hseparator _ hrest)
        (delimited_parts hseparator _ hrest') h
      obtain ⟨rfl, rfl⟩ := ih hmoreas hmorebs hmore
      exact ⟨rfl, rfl⟩

/-- **A list of legible parts is legible**, if no part begins as a delimiter does. -/
theorem legible_list (hseparator : Delimited separator) {as bs : List α}
    (hopen : ∀ a, S a → ∃ c more, write a = c :: more ∧ ¬ Delimiter c)
    (has : ∀ a ∈ as, Legible write S a) (hSas : ∀ a ∈ as, S a) (hbs : ∀ b ∈ bs, S b)
    {rest rest' : List Char} (hrest : Delimited rest) (hrest' : Delimited rest')
    (hend : ¬ separator <+: rest) (hend' : ¬ separator <+: rest')
    (h : joinWith separator (as.map write) ++ rest = joinWith separator (bs.map write) ++ rest') :
    as = bs ∧ rest = rest' := by
  have hfirst : ∀ a, S a → ∀ more, ¬ Delimited (write a ++ more) := by
    intro a ha more hdelimited
    obtain ⟨c, text, htext, hc⟩ := hopen a ha
    obtain ⟨d, rest, heq, hd⟩ := hdelimited
    rw [htext, List.cons_append, List.cons.injEq] at heq
    exact hc (heq.1 ▸ hd)
  cases as with
  | nil =>
    cases bs with
    | nil => exact ⟨rfl, h⟩
    | cons b bs =>
      rw [List.map_nil, joinWith, List.nil_append, List.map_cons, joinWith_cons,
        List.append_assoc] at h
      exact absurd (h ▸ hrest) (hfirst b (hbs b List.mem_cons_self) _)
  | cons a as =>
    cases bs with
    | nil =>
      rw [List.map_nil, joinWith, List.nil_append, List.map_cons, joinWith_cons,
        List.append_assoc] at h
      exact absurd (h ▸ hrest') (hfirst a (hSas a List.mem_cons_self) _)
    | cons b bs =>
      obtain ⟨ha, hmoreas⟩ := List.forall_mem_cons.mp has
      obtain ⟨hb, hmorebs⟩ := List.forall_mem_cons.mp hbs
      rw [List.map_cons, List.map_cons, joinWith_cons, joinWith_cons, List.append_assoc,
        List.append_assoc] at h
      obtain ⟨rfl, hmore⟩ := ha b hb _ _ (delimited_parts hseparator _ hrest)
        (delimited_parts hseparator _ hrest') h
      obtain ⟨rfl, rfl⟩ := legible_parts hseparator hmoreas hmorebs hrest hrest' hend hend' hmore
      exact ⟨rfl, rfl⟩

end Lists

/-! ## 3. Numbers -/

theorem hexValue?_digitChar : ∀ n < 10, hexValue? n.digitChar = some n := by decide

theorem digitsValue_toDigits (n : Nat) : digitsValue 10 (Nat.toDigits 10 n) = n := by
  induction n using Nat.strongRecOn with
  | ind n ih =>
    by_cases hsmall : n < 10
    · rw [Nat.toDigits_of_lt_base hsmall]
      simp [digitsValue, appendDigits, hexValue?_digitChar n hsmall]
    · have hfront := ih (n / 10) (by omega)
      have hlast := hexValue?_digitChar (n % 10) (by omega)
      rw [Nat.toDigits_of_base_le (by decide) (by omega)]
      rw [digitsValue, appendDigits] at hfront ⊢
      rw [List.foldl_append, hfront, List.foldl_cons, List.foldl_nil, hlast, Option.getD_some]
      omega

namespace Number

theorem isDigit_of_mem_toDigits {n : Nat} {c : Char} (h : c ∈ Nat.toDigits 10 n) :
    isDigit c = true :=
  (whole_toDigits n).digits.isDigit c h

/-- What whole numbers are written with. -/
theorem IsWhole.mem_text {n : Number} (h : n.IsWhole) {c : Char} (hc : c ∈ n.text) :
    isDigit c = true ∨ c = '-' := by
  cases n with
  | natural n => exact .inl (isDigit_of_mem_toDigits hc)
  | negative n =>
    obtain rfl | hc := List.mem_cons.mp hc
    · exact .inr rfl
    · exact .inl (isDigit_of_mem_toDigits hc)
  | double d => exact h.elim

theorem IsWhole.eq_of_text_eq {m n : Number} (hm : m.IsWhole) (hn : n.IsWhole)
    (h : m.text = n.text) : m = n := by
  have hsign : ∀ a b : Nat, Nat.toDigits 10 a ≠ '-' :: Nat.toDigits 10 b := by
    intro a b heq
    have hminus := isDigit_of_mem_toDigits (heq ▸ List.mem_cons_self : '-' ∈ Nat.toDigits 10 a)
    exact absurd hminus (by decide)
  have hdigits : ∀ a b : Nat, Nat.toDigits 10 a = Nat.toDigits 10 b → a = b := by
    intro a b heq
    rw [← digitsValue_toDigits a, heq, digitsValue_toDigits]
  cases m with
  | natural a =>
    cases n with
    | natural b => rw [hdigits a b h]
    | negative b => exact absurd h (hsign a b)
    | double d => exact hn.elim
  | negative a =>
    cases n with
    | natural b => exact absurd h.symm (hsign b a)
    | negative b => rw [hdigits a b (List.cons.inj h).2]
    | double d => exact hn.elim
  | double d => exact hm.elim

end Number

namespace Render

/-- The mark of a big integer can be taken off. -/
theorem filter_number {n : Number} (h : n.IsWhole) : (number n).filter (· ≠ 'n') = n.text := by
  have htext : n.text.filter (· ≠ 'n') = n.text := by
    refine List.filter_eq_self.mpr fun c hc => decide_eq_true ?_
    rintro rfl
    exact absurd (h.mem_text hc) (by decide)
  unfold number
  split
  · rw [List.filter_append, htext]
    exact List.append_nil n.text
  · exact htext

theorem number_append_inj {m n : Number} (hm : m.IsWhole) (hn : n.IsWhole)
    {rest rest' : List Char} (hrest : Delimited rest) (hrest' : Delimited rest')
    (h : number m ++ rest = number n ++ rest') : m = n ∧ rest = rest' := by
  let p : Char → Bool := fun c => isDigit c || c = '-' || c = 'n'
  have hrun : ∀ {n : Number}, n.IsWhole → ∀ c ∈ number n, p c = true := by
    intro n hn c hc
    have hmem : c ∈ n.text ∨ c = 'n' := by
      unfold number at hc
      split at hc
      · simpa using hc
      · exact .inl hc
    obtain hc | rfl := hmem
    · obtain hdigit | rfl := hn.mem_text hc
      · simp [p, hdigit]
      · decide
    · decide
  have hstop : ∀ c, Delimiter c → p c = false := by
    rintro c (rfl | rfl | rfl | rfl | rfl) <;> decide
  obtain ⟨htext, hrests⟩ :=
    run_append_inj (hrun hm) (hrun hn) (hrest.stops hstop) (hrest'.stops hstop) h
  have hfilter := congrArg (List.filter (· ≠ 'n')) htext
  rw [filter_number hm, filter_number hn] at hfilter
  exact ⟨hm.eq_of_text_eq hn hfilter, hrests⟩

/-! ## 4. Quoted texts -/

/-- What stands between double quotes is read back, so it cannot end early. -/
theorem quote_append_inj {s t rest rest' : List Char} (h : quote s ++ rest = quote t ++ rest') :
    s = t ∧ rest = rest' := by
  have hread : ∀ text rest : List Char, unquote ⟨1, 0⟩ ((quote text ++ rest).drop 1) =
      .ok (text, rest) := by
    intro text rest
    rw [← unquote_complete (stringBody_escaped text) ⟨1, 0⟩ rest]
    simp [quote]
  have heq := (hread s rest).symm.trans (h ▸ hread t rest')
  rw [Except.ok.injEq, Prod.mk.injEq] at heq
  exact heq

/-- How a character is written between single quotes. -/
def escapeSingle (c : Char) : List Char := if c = '\\' || c = '\'' then ['\\', c] else [c]

theorem singleQuoted_append (text rest : List Char) :
    singleQuoted text ++ rest = '\'' :: (text.flatMap escapeSingle ++ '\'' :: rest) := by
  show '\'' :: text.flatMap escapeSingle ++ ['\''] ++ rest = _
  simp

/-- What is written for a character is never a quote that stands alone. -/
theorem escapeSingle_append_ne (c : Char) (more rest : List Char) :
    escapeSingle c ++ more ≠ '\'' :: rest := by
  unfold escapeSingle
  split
  · exact fun h => absurd (List.cons.inj h).1 (by decide)
  · next hplain =>
    intro h
    exact hplain (by simp [(List.cons.inj h).1])

theorem escapeSingle_append_inj {c d : Char} {more more' : List Char}
    (h : escapeSingle c ++ more = escapeSingle d ++ more') : c = d ∧ more = more' := by
  by_cases hc : c = '\\' || c = '\''
  · by_cases hd : d = '\\' || d = '\''
    · simpa [escapeSingle, hc, hd] using h
    · have heq : '\\' = d := by
        rw [escapeSingle, if_pos hc, escapeSingle, if_neg hd] at h
        exact (List.cons.inj h).1
      subst heq
      exact absurd rfl hd
  · by_cases hd : d = '\\' || d = '\''
    · have heq : c = '\\' := by
        rw [escapeSingle, if_neg hc, escapeSingle, if_pos hd] at h
        exact (List.cons.inj h).1
      subst heq
      exact absurd rfl hc
    · simpa [escapeSingle, hc, hd] using h

theorem singleQuoted_append_inj {s t rest rest' : List Char}
    (h : singleQuoted s ++ rest = singleQuoted t ++ rest') : s = t ∧ rest = rest' := by
  rw [singleQuoted_append, singleQuoted_append, List.cons.injEq] at h
  replace h := h.2
  induction s generalizing t with
  | nil =>
    cases t with
    | nil => exact ⟨rfl, (List.cons.inj h).2⟩
    | cons d t =>
      rw [List.flatMap_cons, List.append_assoc] at h
      exact absurd h.symm (escapeSingle_append_ne d _ _)
  | cons c s ih =>
    rw [List.flatMap_cons, List.append_assoc] at h
    cases t with
    | nil => exact absurd h (escapeSingle_append_ne c _ _)
    | cons d t =>
      rw [List.flatMap_cons, List.append_assoc] at h
      obtain ⟨rfl, hmore⟩ := escapeSingle_append_inj h
      obtain ⟨rfl, rfl⟩ := ih hmore
      exact ⟨rfl, rfl⟩

/-! ## 5. Functions -/

theorem ofName?_name (func : Func) : Func.ofName? func.name = some func := by
  cases func <;> rfl

theorem function_append_inj {f g : Func} {rest rest' : List Char}
    (h : function f ++ '(' :: rest = function g ++ '(' :: rest') : f = g ∧ rest = rest' := by
  have hparenthesis : ∀ f : Func, (function f).all (· ≠ '(') = true := by
    intro f
    cases f <;> decide
  have hdot : ∀ library : Library, library.binding.toList.all (· ≠ '.') = true := by
    intro library
    cases library <;> decide
  obtain ⟨hfunction, hrest⟩ := run_append_inj (List.all_eq_true.mp (hparenthesis f))
    (List.all_eq_true.mp (hparenthesis g)) (stops_cons.mpr (by decide)) (stops_cons.mpr (by decide))
    h
  obtain ⟨-, hname⟩ := run_append_inj (List.all_eq_true.mp (hdot f.library))
    (List.all_eq_true.mp (hdot g.library)) (stops_cons.mpr (by decide)) (stops_cons.mpr (by decide))
    hfunction
  have hname : f.name = g.name := String.toList_inj.mp (List.cons.inj hname).2
  have hfound := ofName?_name f
  rw [hname, ofName?_name g] at hfound
  exact ⟨(Option.some.inj hfound).symm, (List.cons.inj hrest).2⟩

end Render

/-! ## 6. Forms -/

/-- The forms of arguments that their first character tells. -/
inductive Form where
  | call | undefined | null | yes | no | number | string | record | array
  /-- Every other text, such as one that begins with a delimiter. -/
  | other
  deriving DecidableEq

def Form.ofChar (c : Char) : Form :=
  if c = 's' then .call
  else if c = 'u' then .undefined
  else if c = 'n' then .null
  else if c = 't' then .yes
  else if c = 'f' then .no
  else if c = '"' then .string
  else if c = '\x7b' then .record
  else if c = '[' then .array
  else if isDigit c || c = '-' then .number
  else .other

def Constant.form : Constant → Form
  | .undefined => .undefined
  | .null => .null
  | .boolean true => .yes
  | .boolean false => .no
  | .number _ => .number
  | .string _ => .string
  | .regex _ => .other
  | .json _ => .other

def Arg.form : Arg → Form
  | .item (.call ..) => .call
  | .item (.const c) => c.form
  | .record _ => .record
  | .array _ => .array

theorem Form.ofChar_number {c : Char} (h : isDigit c = true ∨ c = '-') :
    Form.ofChar c = .number := by
  have hne : ∀ d : Char, (isDigit d = false ∧ d ≠ '-') → c ≠ d := by
    rintro d ⟨hdigit, hminus⟩ rfl
    obtain h | h := h
    · rw [hdigit] at h
      cases h
    · exact hminus h
  have hnumber : (isDigit c || decide (c = '-')) = true := by simpa using h
  unfold ofChar
  rw [if_neg (hne 's' (by decide)), if_neg (hne 'u' (by decide)), if_neg (hne 'n' (by decide)),
    if_neg (hne 't' (by decide)), if_neg (hne 'f' (by decide)), if_neg (hne '"' (by decide)),
    if_neg (hne '\x7b' (by decide)), if_neg (hne '[' (by decide)), if_pos hnumber]

theorem Form.ofChar_delimiter {c : Char} (h : Delimiter c) : Form.ofChar c = .other := by
  obtain rfl | rfl | rfl | rfl | rfl := h <;> decide

theorem Constant.form_ne (c : Constant) :
    c.form ≠ .call ∧ c.form ≠ .record ∧ c.form ≠ .array := by
  cases c with
  | boolean b => cases b <;> decide
  | _ => exact ⟨nofun, nofun, nofun⟩

namespace Render

theorem number_head {n : Number} (h : n.IsWhole) :
    ∃ c more, number n = c :: more ∧ (isDigit c = true ∨ c = '-') := by
  have hne : n.text ≠ [] := by
    cases n with
    | natural n => exact (whole_toDigits n).ne_nil
    | negative n => exact List.cons_ne_nil _ _
    | double d => exact h.elim
  obtain ⟨c, more, htext⟩ := List.exists_cons_of_ne_nil hne
  have hc := h.mem_text (htext ▸ List.mem_cons_self : c ∈ n.text)
  unfold number
  rw [htext]
  split
  · exact ⟨c, _, List.cons_append, hc⟩
  · exact ⟨c, _, rfl, hc⟩

/-- **The first character of an argument tells its form.** -/
theorem argument_head {a : Arg} (h : a.Plain) :
    ∃ c more, argument a = c :: more ∧ Form.ofChar c = a.form ∧ a.form ≠ .other := by
  cases h with
  | @item i hi =>
    cases hi with
    | @call func args _ =>
      have hbinding : ∃ more, function func = 's' :: more := by
        cases func <;> exact ⟨_, rfl⟩
      obtain ⟨more, hmore⟩ := hbinding
      rw [argument, item, hmore]
      exact ⟨'s', _, rfl, rfl, nofun⟩
    | const hc =>
      rw [argument, item]
      cases hc with
      | undefined | null | string => exact ⟨_, _, rfl, rfl, nofun⟩
      | boolean b => cases b <;> exact ⟨_, _, rfl, rfl, nofun⟩
      | number hn =>
        obtain ⟨c, more, hmore, hc⟩ := number_head hn
        exact ⟨c, more, hmore, Form.ofChar_number hc, nofun⟩
  | @record fields _ =>
    cases fields with
    | nil =>
      rw [argument]
      exact ⟨_, _, rfl, rfl, nofun⟩
    | cons field rest =>
      rw [argument]
      exact ⟨_, _, rfl, rfl, nofun⟩
  | array =>
    rw [argument]
    exact ⟨_, _, rfl, rfl, nofun⟩

/-- Where arguments are written alike, they have one form. -/
theorem form_eq {a b : Arg} (ha : a.Plain) (hb : b.Plain) {rest rest' : List Char}
    (h : argument a ++ rest = argument b ++ rest') : a.form = b.form := by
  obtain ⟨c, more, hmore, hc, -⟩ := argument_head ha
  obtain ⟨d, more', hmore', hd, -⟩ := argument_head hb
  rw [hmore, hmore', List.cons_append, List.cons_append, List.cons.injEq] at h
  rw [← hc, ← hd, h.1]

theorem item_form_eq {i j : Item} (hi : i.Plain) (hj : j.Plain) {rest rest' : List Char}
    (h : item i ++ rest = item j ++ rest') : (Arg.item i).form = (Arg.item j).form :=
  form_eq (.item hi) (.item hj) (by rwa [argument, argument])

theorem argument_opens {a : Arg} (h : a.Plain) :
    ∃ c more, argument a = c :: more ∧ ¬ Delimiter c := by
  obtain ⟨c, more, hmore, hc, hother⟩ := argument_head h
  exact ⟨c, more, hmore, fun hdelimiter => hother (hc ▸ Form.ofChar_delimiter hdelimiter)⟩

/-! ## 7. Trees -/

theorem legible_constant {c : Constant} (h : c.Plain) : Legible constant Constant.Plain c := by
  intro d hd rest rest' hrest hrest' heq
  have hform : c.form = d.form := item_form_eq (.const h) (.const hd) (by rwa [item, item])
  cases h with
  | undefined =>
    cases hd with
    | undefined => exact ⟨rfl, List.append_cancel_left heq⟩
    | boolean b => cases b <;> cases hform
    | _ => cases hform
  | null =>
    cases hd with
    | null => exact ⟨rfl, List.append_cancel_left heq⟩
    | boolean b => cases b <;> cases hform
    | _ => cases hform
  | boolean b =>
    cases hd with
    | boolean b' =>
      cases b <;> cases b' <;> cases hform <;> exact ⟨rfl, List.append_cancel_left heq⟩
    | _ => cases b <;> cases hform
  | number hn =>
    cases hd with
    | number hn' =>
      obtain ⟨rfl, rfl⟩ := number_append_inj hn hn' hrest hrest' heq
      exact ⟨rfl, rfl⟩
    | boolean b => cases b <;> cases hform
    | _ => cases hform
  | string text =>
    cases hd with
    | string text' =>
      obtain ⟨htext, rfl⟩ := quote_append_inj heq
      exact ⟨congrArg Constant.string (String.toList_inj.mp htext), rfl⟩
    | boolean b => cases b <;> cases hform
    | _ => cases hform

theorem arguments_eq_map (args : List Arg) : arguments args = args.map argument := by
  induction args with
  | nil => rw [arguments, List.map_nil]
  | cons arg args ih => rw [arguments, ih, List.map_cons]

theorem items_eq_map (is : List Item) : items is = is.map item := by
  induction is with
  | nil => rw [items, List.map_nil]
  | cons i is ih => rw [items, ih, List.map_cons]

/-- A key and its item, as they stand in a record. -/
def field (f : String × Item) : List Char := quote f.1.toList ++ ": ".toList ++ item f.2

theorem fields_eq_map (fs : List (String × Item)) : fields fs = fs.map field := by
  induction fs with
  | nil => rw [fields, List.map_nil]
  | cons f fs ih => rw [fields, ih, List.map_cons, field]

theorem item_opens {i : Item} (h : i.Plain) : ∃ c more, item i = c :: more ∧ ¬ Delimiter c := by
  have hopens := argument_opens (.item h)
  rwa [argument] at hopens

theorem field_opens (f : String × Item) : ∃ c more, field f = c :: more ∧ ¬ Delimiter c :=
  ⟨'"', _, rfl, by decide⟩

theorem legible_field {f : String × Item} (h : Legible item Item.Plain f.2) :
    Legible field (fun f => f.2.Plain) f := by
  intro g hg rest rest' hrest hrest' heq
  rw [field, field, List.append_assoc, List.append_assoc, List.append_assoc,
    List.append_assoc] at heq
  obtain ⟨hkey, hmore⟩ := quote_append_inj heq
  obtain ⟨hvalue, hrests⟩ := h g.2 hg rest rest' hrest hrest' (List.append_cancel_left hmore)
  exact ⟨Prod.ext (String.toList_inj.mp hkey) hvalue, hrests⟩

theorem legible_call {func : Func} {args : List Arg} (hplain : ∀ arg ∈ args, arg.Plain)
    (h : ∀ arg ∈ args, Legible argument Arg.Plain arg) :
    Legible item Item.Plain (.call func args) := by
  intro j hj rest rest' hrest hrest' heq
  have hform : Form.call = (Arg.item j).form := item_form_eq (.call hplain) hj heq
  cases hj with
  | @const c _ => exact absurd hform.symm c.form_ne.1
  | @call func' args' hplain' =>
    simp only [item, arguments_eq_map, List.append_assoc, List.cons_append, List.nil_append] at heq
    obtain ⟨rfl, hargs⟩ := function_append_inj heq
    obtain ⟨rfl, hrests⟩ := legible_list ⟨',', _, rfl, by decide⟩ (fun _ => argument_opens) h hplain
      hplain' ⟨')', rest, rfl, by decide⟩ ⟨')', rest', rfl, by decide⟩ (by simp) (by simp) hargs
    exact ⟨rfl, (List.cons.inj hrests).2⟩

theorem legible_const {c : Constant} (h : c.Plain) : Legible item Item.Plain (.const c) := by
  intro j hj rest rest' hrest hrest' heq
  have hform : c.form = (Arg.item j).form := item_form_eq (.const h) hj heq
  cases hj with
  | call => exact absurd hform c.form_ne.1
  | @const d hd =>
    rw [item, item] at heq
    obtain ⟨rfl, rfl⟩ := legible_constant h d hd rest rest' hrest hrest' heq
    exact ⟨rfl, rfl⟩

/-- An item as an argument is no record and no array, since its form is another. -/
theorem legible_itemArgument {i : Item} (hplain : i.Plain) (h : Legible item Item.Plain i) :
    Legible argument Arg.Plain (.item i) := by
  intro b hb rest rest' hrest hrest' heq
  have hform := form_eq (.item hplain) hb heq
  have hitem : (Arg.item i).form ≠ .record ∧ (Arg.item i).form ≠ .array := by
    cases i with
    | call => exact ⟨nofun, nofun⟩
    | const c => exact c.form_ne.2
  cases hb with
  | record => exact absurd hform hitem.1
  | array => exact absurd hform hitem.2
  | @item j hj =>
    rw [argument, argument] at heq
    obtain ⟨rfl, rfl⟩ := h j hj rest rest' hrest hrest' heq
    exact ⟨rfl, rfl⟩

theorem legible_array {is : List Item} (hplain : ∀ i ∈ is, i.Plain)
    (h : ∀ i ∈ is, Legible item Item.Plain i) : Legible argument Arg.Plain (.array is) := by
  intro b hb rest rest' hrest hrest' heq
  have hform := form_eq (.array hplain) hb heq
  cases hb with
  | record => cases hform
  | @item j hj =>
    cases j with
    | call => cases hform
    | const c => exact absurd hform.symm c.form_ne.2.2
  | @array js hjs =>
    simp only [argument, items_eq_map, List.append_assoc, List.cons_append, List.nil_append,
      List.cons.injEq, true_and] at heq
    obtain ⟨rfl, hrests⟩ := legible_list ⟨',', _, rfl, by decide⟩ (fun _ => item_opens) h hplain
      hjs ⟨']', rest, rfl, by decide⟩ ⟨']', rest', rfl, by decide⟩ (by simp) (by simp) heq
    exact ⟨rfl, (List.cons.inj hrests).2⟩

/-- The empty record has no line of its own, so it is told by its second character. -/
theorem legible_record {fs : List (String × Item)} (hplain : ∀ f ∈ fs, f.2.Plain)
    (h : ∀ f ∈ fs, Legible field (fun f => f.2.Plain) f) :
    Legible argument Arg.Plain (.record fs) := by
  intro b hb rest rest' hrest hrest' heq
  have hform := form_eq (.record hplain) hb heq
  cases hb with
  | array => cases hform
  | @item j hj =>
    cases j with
    | call => cases hform
    | const c => exact absurd hform.symm c.form_ne.2.1
  | @record gs hgs =>
    cases fs with
    | nil =>
      cases gs with
      | nil => exact ⟨rfl, List.append_cancel_left heq⟩
      | cons g gs => simp [argument] at heq
    | cons f fs =>
      cases gs with
      | nil => simp [argument] at heq
      | cons g gs =>
        simp only [argument, fields_eq_map, List.append_assoc, List.cons_append, List.nil_append,
          List.cons.injEq, true_and] at heq
        obtain ⟨hfields, hrests⟩ := legible_list ⟨',', _, rfl, by decide⟩ (fun f _ => field_opens f)
          h hplain hgs ⟨'\n', '\x7d' :: rest, rfl, by decide⟩
          ⟨'\n', '\x7d' :: rest', rfl, by decide⟩ (by simp) (by simp) heq
        simp only [List.cons.injEq, true_and] at hrests
        exact ⟨congrArg Arg.record hfields, hrests⟩

mutual

/-- **Every plain item is legible.** -/
theorem legible_item : (i : Item) → i.Plain → Legible item Item.Plain i
  | .call _ args, h => by
    cases h with
    | call hargs => exact legible_call hargs (legible_arguments args hargs)
  | .const _, h => by
    cases h with
    | const hc => exact legible_const hc

/-- Every plain argument is legible. -/
theorem legible_argument : (a : Arg) → a.Plain → Legible argument Arg.Plain a
  | .item i, h => by
    cases h with
    | item hi => exact legible_itemArgument hi (legible_item i hi)
  | .record fs, h => by
    cases h with
    | record hfs => exact legible_record hfs (legible_fields fs hfs)
  | .array is, h => by
    cases h with
    | array his => exact legible_array his (legible_items is his)

theorem legible_arguments : (args : List Arg) → (∀ arg ∈ args, arg.Plain) →
    ∀ arg ∈ args, Legible argument Arg.Plain arg
  | [], _ => fun _ hmem => nomatch hmem
  | arg :: args, h => by
    obtain ⟨harg, hargs⟩ := List.forall_mem_cons.mp h
    exact List.forall_mem_cons.mpr ⟨legible_argument arg harg, legible_arguments args hargs⟩

theorem legible_items : (is : List Item) → (∀ i ∈ is, i.Plain) →
    ∀ i ∈ is, Legible item Item.Plain i
  | [], _ => fun _ hmem => nomatch hmem
  | i :: is, h => by
    obtain ⟨hi, his⟩ := List.forall_mem_cons.mp h
    exact List.forall_mem_cons.mpr ⟨legible_item i hi, legible_items is his⟩

theorem legible_fields : (fs : List (String × Item)) → (∀ f ∈ fs, f.2.Plain) →
    ∀ f ∈ fs, Legible field (fun f => f.2.Plain) f
  | [], _ => fun _ hmem => nomatch hmem
  | (_, i) :: fs, h => by
    obtain ⟨hi, hfs⟩ := List.forall_mem_cons.mp h
    exact List.forall_mem_cons.mpr ⟨legible_field (legible_item i hi), legible_fields fs hfs⟩

end

/-! ## 8. Modules -/

theorem legible_definition {alphabet : Alphabet} {d : Definition} (h : d.Plain alphabet) :
    Legible definition (Definition.Plain alphabet) d := by
  intro e he rest rest' hrest hrest' heq
  have hblank : alphabet.isAlphanumeric ' ' = false := by
    rw [alphabet.isAlphanumeric_ascii ' ' (by decide)]
    decide
  have hname : ∀ {d : Definition}, d.Plain alphabet →
      ∀ c ∈ d.name.toList, (c ≠ ' ' : Bool) = true := by
    intro d hd c hc
    refine decide_eq_true ?_
    rintro rfl
    rcases hd.name ' ' hc with halphanumeric | hunderscore
    · rw [hblank] at halphanumeric
      cases halphanumeric
    · exact absurd hunderscore (by decide)
  have hequals : " = ".toList = [' ', '=', ' '] := rfl
  unfold definition at heq
  simp only [hequals, List.append_assoc, List.cons_append, List.nil_append] at heq
  obtain ⟨hnames, hmore⟩ := run_append_inj (hname h) (hname he) (stops_cons.mpr (by decide))
    (stops_cons.mpr (by decide)) (List.append_cancel_left heq)
  simp only [List.cons.injEq, true_and] at hmore
  obtain ⟨hbody, hrests⟩ := legible_item _ h.body _ he.body _ _ ⟨';', rest, rfl, by decide⟩
    ⟨';', rest', rfl, by decide⟩ hmore
  obtain ⟨name, func, args⟩ := d
  obtain ⟨name', func', args'⟩ := e
  cases hbody
  cases String.toList_inj.mp hnames
  exact ⟨rfl, (List.cons.inj hrests).2⟩

theorem importLine_append_inj {library : Library} {source source' : String}
    {rest rest' : List Char}
    (h : importLine library source ++ rest = importLine library source' ++ rest') :
    source = source' ∧ rest = rest' := by
  unfold importLine at h
  simp only [List.append_assoc] at h
  replace h := List.append_cancel_left (List.append_cancel_left (List.append_cancel_left h))
  obtain ⟨hsource, hrest⟩ := singleQuoted_append_inj h
  exact ⟨String.toList_inj.mp hsource, List.append_cancel_left hrest⟩

end Render

/-- **The text of a module tells its imports and its definitions**, if these are plain: whatever
    stands in the names of the libraries, in keys and in strings, modules that differ have
    different texts. -/
theorem render_eq_iff (alphabet : Alphabet) (imports imports' : Imports) (ds ds' : List Definition)
    (h : ∀ d ∈ ds, d.Plain alphabet) (h' : ∀ d ∈ ds', d.Plain alphabet) :
    render imports ds = render imports' ds' ↔ imports = imports' ∧ ds = ds' := by
  constructor
  · intro heq
    simp only [render, List.append_assoc] at heq
    obtain ⟨hcombinators, hmore⟩ := Render.importLine_append_inj heq
    obtain ⟨hhelpers, hmore⟩ := Render.importLine_append_inj hmore
    -- The text ends after one line feed, where a further definition would begin after two.
    have hseparator : Delimited "\n\n".toList := ⟨'\n', _, rfl, by decide⟩
    obtain ⟨hds, -⟩ := legible_list hseparator
      (fun d _ => ⟨'e', _, rfl, by decide⟩) (fun d hd => Render.legible_definition (h d hd)) h h'
      ⟨'\n', [], rfl, by decide⟩ ⟨'\n', [], rfl, by decide⟩ (by decide) (by decide)
      (List.cons.inj hmore).2
    obtain ⟨combinators, helpers⟩ := imports
    cases hcombinators
    cases hhelpers
    exact ⟨rfl, hds⟩
  · rintro ⟨rfl, rfl⟩
    rfl

/-- A record under one name, with some keys. -/
def recordOf (keys : List String) : Definition :=
  ⟨"Root_1", .type, [.record (keys.map fun key => (key, Call.unknown.toItem)),
    .item (.const (.number (.natural 9007199254740992)))]⟩

theorem plain_recordOf (keys : List String) : (recordOf keys).Plain .tabulated where
  name := by
    have hall : "Root_1".toList.all
        (fun c => Alphabet.tabulated.isAlphanumeric c || c = '_') = true := by decide
    intro c hc
    have hone := List.all_eq_true.mp hall c hc
    simpa using hone
  body := by
    refine .call (List.forall_mem_cons.mpr ⟨?_, List.forall_mem_singleton.mpr ?_⟩)
    · refine .record (List.forall_mem_map.mpr fun key _ => ?_)
      exact .call fun _ hmem => nomatch hmem
    · exact .item (.const (.number trivial))

/-- A key that looks like two fields is not taken for two fields, and the name of a library that
    looks like two imports not for two. -/
theorem render_ne_of_feigned :
    render ⟨"a'\nimport * as std from 'b", "c"⟩ [recordOf ["x\": ss.unknown(),\n\"y"]] ≠
        render ⟨"a'\nimport * as std from 'b", "c"⟩ [recordOf ["x", "y"]] ∧
      render ⟨"a'\nimport * as std from 'b", "c"⟩ [recordOf []] ≠
        render ⟨"a", "b'\nimport * as std from 'c"⟩ [recordOf []] := by
  have hplain : ∀ keys, ∀ d ∈ [recordOf keys], d.Plain .tabulated :=
    fun keys => List.forall_mem_singleton.mpr (plain_recordOf keys)
  constructor
  · intro h
    have hds := ((render_eq_iff .tabulated _ _ _ _ (hplain _) (hplain _)).mp h).2
    simp [recordOf] at hds
  · intro h
    have himports := ((render_eq_iff .tabulated _ _ _ _ (hplain _) (hplain _)).mp h).1
    exact absurd himports (by decide)

end SchemaCompiler
