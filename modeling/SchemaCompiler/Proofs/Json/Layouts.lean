/-
  File:      SchemaCompiler/Proofs/Json/Layouts.lean
  Subject:   Reading undoes writing, in every layout.

  `Value.tokens` cuts the compact text of a value into its tokens; `Spaced tokens text` says that
  `text` is these tokens with any blanks between and around them. The values are those that a text
  gives back exactly (`Value.Integral`): whole numbers of 64 bits, no doubles.

  * `Opens` -- however the tokens are laid out and whatever follows them, the grammar derives the
    part of the text that they take up. It is proved part by part: `opens_token`, `opens_member`,
    `opens_array`, `opens_object`, and by induction for every value (`opens_value`);
  * **`parse_layout`** -- up to depth 128 every layout of a value is read as that value, and beyond
    it no layout is read.
-/
import Mathlib.Algebra.Group.Nat.Defs
import Mathlib.Data.List.Forall2
import SchemaCompiler.Proofs.Json.Derivations
import SchemaCompiler.Proofs.Json.Entries
import SchemaCompiler.Proofs.Json.Writing

namespace SchemaCompiler

open Grammar

/-! ## 1. Tokens -/

/-- The tokens of some parts, with a comma between the parts. -/
def withCommas : List (List (List Char)) → List (List Char)
  | [] => []
  | [last] => last
  | part :: parts => part ++ [','] :: withCommas parts

namespace Value

mutual

/-- The tokens of the text of a value, in order. -/
def tokens : Value → List (List Char)
  | .null => ["null".toList]
  | .boolean b => [booleanText b]
  | .number n => [n.text]
  | .string s => [quote s.toList]
  | .array items => ['['] :: (withCommas (itemTokens items) ++ [[']']])
  | .object members => ['\x7b'] :: (withCommas (memberTokens members) ++ [['\x7d']])

/-- The tokens of each item of an array. -/
def itemTokens : List Value → List (List (List Char))
  | [] => []
  | item :: items => item.tokens :: itemTokens items

/-- The tokens of each member of an object. -/
def memberTokens : List (String × Value) → List (List (List Char))
  | [] => []
  | (key, value) :: members => (quote key.toList :: [':'] :: value.tokens) :: memberTokens members

end

theorem itemTokens_eq_map (items : List Value) : itemTokens items = items.map tokens := by
  induction items with
  | nil => rfl
  | cons item items ih => rw [itemTokens, ih, List.map_cons]

theorem memberTokens_eq_map (members : List (String × Value)) :
    memberTokens members = members.map fun m => quote m.1.toList :: [':'] :: m.2.tokens := by
  induction members with
  | nil => rfl
  | cons m members ih => rw [memberTokens, ih, List.map_cons]

theorem flatten_withCommas (parts : List (List (List Char))) :
    (withCommas parts).flatten = joinWith [','] (parts.map List.flatten) := by
  induction parts with
  | nil => rfl
  | cons part parts ih =>
    cases parts with
    | nil => rfl
    | cons next parts =>
      rw [withCommas, List.flatten_append, List.flatten_cons, ih]
      · simp only [List.map_cons, joinWith, List.append_assoc, List.cons_append, List.nil_append]
      · exact List.cons_ne_nil next parts

mutual

/-- **The tokens of a value are its compact text, cut into pieces.** -/
theorem flatten_tokens : (v : Value) → v.tokens.flatten = v.text
  | .null | .boolean _ | .number _ | .string _ => by simp [tokens, text]
  | .array items => by
    rw [tokens, text, List.flatten_cons, List.flatten_append, flatten_withCommas,
      flatten_itemTokens items]
    rfl
  | .object members => by
    rw [tokens, text, List.flatten_cons, List.flatten_append, flatten_withCommas,
      flatten_memberTokens members]
    rfl

theorem flatten_itemTokens : (items : List Value) →
    (itemTokens items).map List.flatten = itemTexts items
  | [] => rfl
  | item :: items => by
    rw [itemTokens, itemTexts, List.map_cons, flatten_tokens item, flatten_itemTokens items]

theorem flatten_memberTokens : (members : List (String × Value)) →
    (memberTokens members).map List.flatten = memberTexts members
  | [] => rfl
  | (key, value) :: members => by
    rw [memberTokens, memberTexts, List.map_cons, List.flatten_cons, List.flatten_cons,
      flatten_tokens value, flatten_memberTokens members]
    rfl

end

end Value

/-! ## 2. Layouts -/

/-- The text is the tokens in order, with any blanks before, between and after them. -/
inductive Spaced : List (List Char) → List Char → Prop
  | done {blanks : List Char} : Blanks blanks → Spaced [] blanks
  | token {blanks token text : List Char} {tokens : List (List Char)} :
      Blanks blanks → Spaced tokens text → Spaced (token :: tokens) (blanks ++ (token ++ text))

/-- The tokens with the given gaps before them, and with none where the gaps run out. -/
def layOut : List (List Char) → List (List Char) → List Char
  | [], tokens => tokens.flatten
  | gap :: _, [] => gap
  | gap :: gaps, token :: tokens => gap ++ (token ++ layOut gaps tokens)

theorem spaced_flatten (tokens : List (List Char)) : Spaced tokens tokens.flatten := by
  induction tokens with
  | nil => exact .done (by decide)
  | cons token tokens ih => exact @Spaced.token [] token _ tokens (by decide) ih

theorem spaced_layOut {gaps : List (List Char)} (h : ∀ gap ∈ gaps, Blanks gap)
    (tokens : List (List Char)) : Spaced tokens (layOut gaps tokens) := by
  induction gaps generalizing tokens with
  | nil => exact spaced_flatten tokens
  | cons gap gaps ih =>
    obtain ⟨hgap, hgaps⟩ := List.forall_mem_cons.mp h
    cases tokens with
    | nil => exact .done hgap
    | cons token tokens => exact .token hgap (ih hgaps tokens)

/-- However the tokens are laid out and whatever comes after them, the rule derives the text that
    they take up, at any offset, as something that `R` relates to `b`. -/
def Opens {α β : Type} (rule : Production α) (R : α → β → Prop) (tokens : List (List Char))
    (b : β) : Prop :=
  ∀ more text, Spaced (tokens ++ more) text →
    ∃ before front rest, text = before ++ (front ++ rest) ∧ Blanks before ∧ Spaced more rest ∧
      ∀ start, ∃ a, rule front start a ∧ R a b

section Parts

variable {α β : Type} {rule : Production α} {R : α → β → Prop}

theorem opens_token {token : List Char} {b : β} (h : ∀ start, ∃ a, rule token start a ∧ R a b) :
    Opens rule R [token] b := by
  intro more text hspaced
  cases hspaced with
  | token hblanks hrest => exact ⟨_, _, _, rfl, hblanks, hrest, h⟩

/-- Parts with commas between them are laid out up to the closing token. -/
theorem spaced_parts {tokens : β → List (List Char)} {bs : List β} {closing text : List Char}
    {more : List (List Char)} (hne : bs ≠ []) (h : ∀ b ∈ bs, Opens rule R (tokens b) b)
    (hspaced : Spaced (withCommas (bs.map tokens) ++ closing :: more) text) :
    ∃ body rest, text = body ++ (closing ++ rest) ∧ Spaced more rest ∧
      ∀ start, ∃ as, Parts rule body start as ∧ List.Forall₂ R as bs := by
  induction bs generalizing text with
  | nil => exact absurd rfl hne
  | cons b bs ih =>
    obtain ⟨hb, hbs⟩ := List.forall_mem_cons.mp h
    cases bs with
    | nil =>
      obtain ⟨before, front, rest, rfl, hbefore, hrest, hfront⟩ := hb _ _ hspaced
      cases hrest with
      | @token after _ rest _ hafter hrest =>
        refine ⟨before ++ (front ++ after), rest, by simp, hrest, fun start => ?_⟩
        obtain ⟨a, ha, hR⟩ := hfront (start + byteLength before)
        exact ⟨[a], .last hbefore ha hafter, .cons hR .nil⟩
    | cons b' bs =>
      rw [List.map_cons, List.map_cons, withCommas, List.append_assoc] at hspaced
      · obtain ⟨before, front, rest, rfl, hbefore, hrest, hfront⟩ := hb _ _ hspaced
        cases hrest with
        | @token after _ rest _ hafter hrest =>
          obtain ⟨body, rest, rfl, hmore, hbody⟩ := ih (List.cons_ne_nil b' bs) hbs hrest
          refine ⟨before ++ (front ++ (after ++ ',' :: body)), rest, by simp, hmore,
            fun start => ?_⟩
          obtain ⟨a, ha, hR⟩ := hfront (start + byteLength before)
          obtain ⟨as, has, hRs⟩ :=
            hbody (start + byteLength (before ++ (front ++ (after ++ [',']))))
          exact ⟨a :: as, .more hbefore ha hafter has, .cons hR hRs⟩
      · exact List.cons_ne_nil (tokens b') (bs.map tokens)

/-- What stands between brackets, laid out with its brackets. -/
theorem spaced_between {tokens : β → List (List Char)} {bs : List β} {opening closing : Char}
    {text : List Char} {more : List (List Char)} (h : ∀ b ∈ bs, Opens rule R (tokens b) b)
    (hspaced : Spaced ([opening] :: (withCommas (bs.map tokens) ++ [[closing]]) ++ more) text) :
    ∃ before inner rest, text = before ++ ((opening :: inner) ++ rest) ∧ Blanks before ∧
      Spaced more rest ∧
      ∀ start, ∃ as, BetweenText rule closing inner start as ∧ List.Forall₂ R as bs := by
  rw [List.cons_append, List.append_assoc] at hspaced
  cases hspaced with
  | @token before _ text _ hbefore hinner =>
    by_cases hempty : bs = []
    · subst hempty
      cases hinner with
      | @token blanks _ rest _ hblanks hrest =>
        refine ⟨before, blanks ++ [closing], rest, by simp, hbefore, hrest, fun start => ?_⟩
        exact ⟨[], ⟨blanks, rfl, .inl ⟨hblanks, rfl⟩⟩, .nil⟩
    · obtain ⟨body, rest, rfl, hrest, hbody⟩ := spaced_parts hempty h hinner
      refine ⟨before, body ++ [closing], rest, by simp, hbefore, hrest, fun start => ?_⟩
      obtain ⟨as, has, hRs⟩ := hbody start
      exact ⟨as, ⟨body, rfl, .inr has⟩, hRs⟩

end Parts

/-! ## 3. Values and trees -/

namespace Value

mutual

/-- How deep arrays and objects nest in a value. -/
def depth : Value → Nat
  | .array items => depthOfItems items + 1
  | .object members => depthOfMembers members + 1
  | .null | .boolean _ | .number _ | .string _ => 0

/-- The depth of the deepest item. -/
def depthOfItems : List Value → Nat
  | [] => 0
  | item :: items => max item.depth (depthOfItems items)

/-- The depth of the deepest value of a member. -/
def depthOfMembers : List (String × Value) → Nat
  | [] => 0
  | (_, value) :: members => max value.depth (depthOfMembers members)

end

/-- The values that a text gives back exactly: null, truth values, whole numbers from `-2^63` to
    `2^64 - 1`, strings, and arrays and objects of such values, the keys of an object distinct. -/
inductive Integral : Value → Prop
  | null : Integral .null
  | boolean (b : Bool) : Integral (.boolean b)
  | natural {n : Nat} : n < 2 ^ 64 → Integral (.number (.natural n))
  | negative {n : Nat} : 0 < n → n ≤ 2 ^ 63 → Integral (.number (.negative n))
  | string (s : String) : Integral (.string s)
  | array {items : List Value} : (∀ item ∈ items, Integral item) → Integral (.array items)
  | object {members : List (String × Value)} :
      DistinctKeys members → (∀ m ∈ members, Integral m.2) → Integral (.object members)

end Value

/-- The tree has the value, and nests as deep. -/
def Node.Depicts (node : Node) (v : Value) : Prop := node.toValue = v ∧ node.depth = v.depth

/-- The member has the key, and its tree the value. -/
def Member.Depicts (member : Member Node) (m : String × Value) : Prop :=
  member.key = m.1 ∧ member.value.Depicts m.2

theorem depicts_array {nodes : List Node} {items : List Value}
    (h : List.Forall₂ Node.Depicts nodes items) (span : Span) :
    (Node.array nodes span).Depicts (.array items) := by
  have hparts : Node.itemValues nodes = items ∧ itemsDepth nodes = Value.depthOfItems items := by
    induction h with
    | nil => exact ⟨rfl, rfl⟩
    | cons hitem _ ih =>
      rw [Node.itemValues, itemsDepth, Value.depthOfItems, ih.1, ih.2, hitem.1, hitem.2]
      exact ⟨rfl, rfl⟩
  rw [Node.Depicts, Node.toValue, Node.depth, Value.depth, hparts.1, hparts.2]
  exact ⟨rfl, rfl⟩

theorem depicts_object {nodes : List (Member Node)} {members : List (String × Value)}
    (hkeys : DistinctKeys members) (h : List.Forall₂ Member.Depicts nodes members) (span : Span) :
    (Node.object nodes span).Depicts (.object members) := by
  have hparts : Node.memberValues nodes = members ∧
      membersDepth nodes = Value.depthOfMembers members := by
    clear hkeys
    induction h with
    | nil => exact ⟨rfl, rfl⟩
    | @cons node m _ _ hmember _ ih =>
      obtain ⟨hkey, hvalue, hdepth⟩ := hmember
      rw [Node.memberValues, membersDepth, Value.depthOfMembers, ih.1, ih.2, hkey, hvalue, hdepth]
      exact ⟨rfl, rfl⟩
  rw [Node.Depicts, Node.toValue, Node.depth, Value.depth, hparts.1, hparts.2,
    hkeys.collectEntries_eq]
  exact ⟨rfl, rfl⟩

/-! ## 4. Every value -/

theorem opens_array {items : List Value}
    (h : ∀ item ∈ items, Opens IsValue Node.Depicts item.tokens item) :
    Opens IsValue Node.Depicts (Value.array items).tokens (.array items) := by
  intro more text hspaced
  rw [Value.tokens, Value.itemTokens_eq_map] at hspaced
  obtain ⟨before, inner, rest, rfl, hbefore, hrest, hinner⟩ := spaced_between h hspaced
  refine ⟨before, '[' :: inner, rest, rfl, hbefore, hrest, fun start => ?_⟩
  obtain ⟨nodes, hnodes, hdepicts⟩ := hinner (start + 1)
  exact ⟨_, .of_items hnodes, depicts_array hdepicts _⟩

/-- A key, a colon and a value. -/
theorem opens_member {m : String × Value} (h : Opens IsValue Node.Depicts m.2.tokens m.2) :
    Opens (MemberText IsValue) Member.Depicts (quote m.1.toList :: [':'] :: m.2.tokens) m := by
  intro more text hspaced
  have hbody := stringBody_escaped m.1.toList
  cases hspaced with
  | @token before _ text _ hbefore hspaced =>
    cases hspaced with
    | @token beforeColon _ text _ hcolon hspaced =>
      obtain ⟨afterColon, front, rest, rfl, hafter, hrest, hfront⟩ := h _ _ hspaced
      refine ⟨before, '"' :: (m.1.toList.flatMap escapeChar ++ '"' ::
        (beforeColon ++ ':' :: (afterColon ++ front))), rest, by simp [quote], hbefore, hrest,
        fun start => ?_⟩
      obtain ⟨node, hnode, hdepicts⟩ := hfront (start + byteLength
        ('"' :: (m.1.toList.flatMap escapeChar ++ '"' :: (beforeColon ++ ':' :: afterColon))))
      exact ⟨_, .mk hbody hcolon hafter hnode, String.ofList_toList, hdepicts⟩

theorem opens_object {members : List (String × Value)} (hkeys : DistinctKeys members)
    (h : ∀ m ∈ members, Opens IsValue Node.Depicts m.2.tokens m.2) :
    Opens IsValue Node.Depicts (Value.object members).tokens (.object members) := by
  intro more text hspaced
  rw [Value.tokens, Value.memberTokens_eq_map] at hspaced
  obtain ⟨before, inner, rest, rfl, hbefore, hrest, hinner⟩ :=
    spaced_between (fun m hm => opens_member (h m hm)) hspaced
  refine ⟨before, '\x7b' :: inner, rest, rfl, hbefore, hrest, fun start => ?_⟩
  obtain ⟨nodes, hnodes, hdepicts⟩ := hinner (start + 1)
  exact ⟨_, .of_members hnodes, depicts_object hkeys hdepicts _⟩

theorem opens_number {sign : List Char} {negative : Bool} {n : Nat} {number : Number}
    (hsign : Sign sign negative)
    (hvalue : (Numeral.mk negative (Nat.toDigits 10 n) [] none).value = number) :
    Opens IsValue Node.Depicts [sign ++ Nat.toDigits 10 n] (.number number) := by
  refine opens_token fun start => ?_
  have htoken := NumberToken.mk hsign (whole_toDigits n) .absent .absent
  rw [List.append_nil, List.append_nil] at htoken
  exact ⟨_, .number htoken, by rw [hvalue]; rfl, rfl⟩

/-- **Every layout of a value begins with a text that the grammar derives as that value.** -/
theorem opens_value {v : Value} (h : v.Integral) : Opens IsValue Node.Depicts v.tokens v := by
  induction h with
  | null => exact opens_token fun start => ⟨_, .null, rfl, rfl⟩
  | boolean b =>
    cases b with
    | true => exact opens_token fun start => ⟨_, .true, rfl, rfl⟩
    | false => exact opens_token fun start => ⟨_, .false, rfl, rfl⟩
  | @natural n hn =>
    have hlimit : n ≤ Numeral.significandLimit := Nat.le_of_lt_succ hn
    exact opens_number .absent (Numeral.value_natural hlimit)
  | negative hpos hn => exact opens_number .minus (Numeral.value_negative hpos hn)
  | string s =>
    refine opens_token fun start => ⟨_, .string (stringBody_escaped s.toList), ?_, rfl⟩
    rw [String.ofList_toList, Node.toValue]
  | array _ ih => exact opens_array ih
  | object hkeys _ ih => exact opens_object hkeys ih

/-- Every layout of a value is a document. -/
theorem isDocument_of_spaced {v : Value} (h : v.Integral) {text : List Char}
    (hspaced : Spaced v.tokens text) : ∃ root : Node, IsDocument text root ∧ root.Depicts v := by
  rw [← List.append_nil v.tokens] at hspaced
  obtain ⟨before, front, rest, rfl, hbefore, hrest, hfront⟩ := opens_value h _ _ hspaced
  obtain ⟨root, hroot, hdepicts⟩ := hfront (byteLength before)
  cases hrest with
  | done hblanks => exact ⟨root, .mk hbefore hroot hblanks, hdepicts⟩

/-- **Reading undoes writing.** However the compact text of a value is laid out, it is read as that
    value, members in their order, if arrays and objects nest at most 128 deep in it; if they nest
    deeper, it is refused. -/
theorem parse_layout (v : Value) (h : v.Integral) (source : String)
    (hspaced : Spaced v.tokens source.toList) :
    v.tokens.flatten = v.text ∧
      (v.depth ≤ 128 → ∃ root, Node.parse source = .ok root ∧ root.toValue = v) ∧
      (128 < v.depth → ∃ e, Node.parse source = .error e) := by
  obtain ⟨root, hdocument, hvalue, hdepth⟩ := isDocument_of_spaced h hspaced
  refine ⟨v.flatten_tokens, fun hle => ?_, fun hgt => ?_⟩
  · rw [← hdepth] at hle
    exact ⟨root, hdocument.read_eq_ok hle, hvalue⟩
  · cases hparse : Node.parse source with
    | error e => exact ⟨e, rfl⟩
    | ok node =>
      -- a tree within the limit would be a second tree of the same text
      obtain ⟨hnode, hle⟩ := isDocument_of_read hparse
      rw [hnode.unique hdocument, hdepth] at hle
      exact absurd hle (Nat.not_le.mpr hgt)

/-- The least and the greatest whole number, under a key whose characters are special. -/
def limits : Value :=
  .object [("\"\\é\x1f", .array [.number (.negative (2 ^ 63)), .number (.natural (2 ^ 64 - 1))])]

theorem integral_limits : limits.Integral := by
  refine .object (List.nodup_singleton _) (List.forall_mem_singleton.mpr (.array ?_))
  exact List.forall_mem_cons.mpr ⟨.negative (by decide) (by decide),
    List.forall_mem_singleton.mpr (.natural (by decide))⟩

/-- Arrays nested in each other. -/
def nested : Nat → Value
  | 0 => .array []
  | n + 1 => .array [nested n]

theorem integral_nested (n : Nat) : (nested n).Integral ∧ (nested n).depth = n + 1 := by
  induction n with
  | zero => exact ⟨.array fun item hitem => absurd hitem List.not_mem_nil, rfl⟩
  | succ n ih =>
    refine ⟨.array (List.forall_mem_singleton.mpr ih.1), ?_⟩
    rw [nested, Value.depth, Value.depthOfItems, ih.2, Value.depthOfItems, Nat.max_zero]

theorem parse_layout_extremes :
    (∃ root, Node.parse
        "\x7b\"\\\"\\\\é\\u001f\":\n[-9223372036854775808 , 18446744073709551615]\r\x7d " =
          .ok root ∧ root.toValue = limits) ∧
      ∃ e, Node.parse (String.ofList (nested 128).text) = .error e := by
  obtain ⟨hintegral, hdepth⟩ := integral_nested 128
  have hlimits : ∀ gap ∈ [[], [], [], ['\n'], [], [' '], [' '], [], ['\r'], [' ']], Blanks gap := by
    decide
  have hnested : Spaced (nested 128).tokens (String.ofList (nested 128).text).toList := by
    rw [String.toList_ofList, ← Value.flatten_tokens]
    exact spaced_flatten _
  exact ⟨(parse_layout limits integral_limits _ (spaced_layOut hlimits _)).2.1 (by decide),
    (parse_layout (nested 128) hintegral _ hnested).2.2 (by omega)⟩

end SchemaCompiler
