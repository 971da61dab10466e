/-
  File:      SchemaCompiler/Proofs/Json/ByteReading.lean
  Subject:   The byte reader gives what the reader of characters gives, and nothing goes wrong on
             the way.

  At the states that stand at a cursor every byte reader mirrors the reader of characters
  (`Simulates`): it ends with the same value at the next cursor, or with the same error, never with
  a fault.

  * `MirrorsTurn`, `mirrors_parts` -- what one turn over the parts of an array or an object can be,
    and from that the loop over them;
  * `mirrors_bracketed`, `simulates_value` -- a bracket is counted while it is open; so the frames
    suffice if there is one for each level that is left;
  * **`byte_reading_safe`** puts this together with what is known of positions (`moves_value`) for
    the texts of documents.
-/
import SchemaCompiler.Proofs.Json.ByteScanning
import SchemaCompiler.Proofs.Json.ViablePrefixes

namespace SchemaCompiler

namespace ByteReader

open Grammar

variable {source : List Char} {depth : Nat}

/-! ## 1. Mirrored readers -/

/-- **The outcome is what the reader gives**: the same value with a state at the next cursor, or the
    same error. -/
inductive Mirrors {α : Type} (source : List Char) (depth : Nat) (reader : Reader α) (c : Cursor) :
    Outcome α → Prop
  | done {a : α} {s : State} {d : Cursor} :
      Reads reader c a d → Stands source depth s d → Mirrors source depth reader c (.done a s)
  | failed {e : SyntaxError} {s : State} :
      reader c = .error e → Kept source depth s → Mirrors source depth reader c (.failed e s)

/-- What mirrors a reader mirrors every reader that gives the same there. -/
theorem Mirrors.lift {α : Type} {reader reader' : Reader α} {c : Cursor} {outcome : Outcome α}
    (h : Mirrors source depth reader c outcome)
    (hreads : ∀ a d, Reads reader c a d → Reads reader' c a d)
    (hfails : ∀ e, reader c = .error e → reader' c = .error e) :
    Mirrors source depth reader' c outcome := by
  cases h with
  | done hread hs => exact .done (hreads _ _ hread) hs
  | failed hfail hs => exact .failed (hfails _ hfail) hs

/-- The byte reader mirrors the reader wherever it stands. -/
def Simulates {α : Type} (source : List Char) (depth : Nat) (reader : Reader α)
    (bytes : State → Outcome α) : Prop :=
  ∀ ⦃s : State⦄ ⦃c : Cursor⦄, Stands source depth s c → Mirrors source depth reader c (bytes s)

section Scalars

variable {s : State} {c : Cursor}

/-- A slice from one cursor to a later one is taken, and is proper. -/
theorem cut_eq {last : State} {d : Cursor} {text : List Char} (h : Stands source depth s c)
    (hlast : Stands source depth last d) (hcovers : c.Covers text d) (hne : text ≠ []) :
    ∃ s', cut source s.pos last = .done text s' ∧ Stands source depth s' d := by
  obtain ⟨front, hsource, hpos⟩ := h.split
  rw [hcovers.1] at hsource
  have hstop : last.pos = s.pos + byteLength text := by
    rw [hlast.pos_eq, hcovers.2, h.pos_eq]
  have hslice : slice? source ⟨s.pos, last.pos⟩ = some text := by
    refine slice?_eq_some_iff.mpr ⟨front, d.rest, hsource, ?_⟩
    rw [covering, hpos, hstop]
  have hproper : ProperSlice source ⟨s.pos, last.pos⟩ := by
    obtain ⟨x, more, rfl⟩ := List.exists_cons_of_ne_nil hne
    have hx := x.utf8Size_pos
    have hlimit := hlast.limit
    rw [length_utf8] at hlimit
    rw [byteLength_cons] at hstop
    refine ⟨⟨front, _, hsource, hpos⟩, ?_, by simp only; omega, by simp only; omega⟩
    obtain ⟨front', hsource', hpos'⟩ := hlast.split
    exact ⟨front', d.rest, hsource', hpos'⟩
  refine ⟨{ last with slices := ⟨s.pos, last.pos⟩ :: last.slices }, by rw [cut, hslice], ?_⟩
  refine { depth_eq := hlast.depth_eq, proper := ?_, pos_eq := hlast.pos_eq,
           reached := hlast.reached }
  exact List.forall_mem_cons.mpr ⟨hproper, hlast.proper⟩

theorem readString_closed {start : Nat} {token left : List Char}
    (hscan : scanQuoted c.rest = .closed token left) :
    (∀ decoded more, unquote ⟨1, 1⟩ token = .ok (decoded, more) →
        Reads (readString start) c
          (String.ofList decoded, ⟨start, c.offset + byteLength token⟩)
          ⟨left, c.offset + byteLength token⟩) ∧
      ∀ error, unquote ⟨1, 1⟩ token = .error error →
        readString start c = .error ⟨.badString error, ⟨start, c.offset + byteLength token⟩⟩ := by
  have hshorter := scanQuoted_length hscan
  unfold Reads readString
  split
  · rename_i e
    rw [hscan] at e
    cases e
    refine ⟨fun decoded more hdecoded => ⟨hshorter, ?_⟩, fun error herror => ?_⟩
    · simp only [hdecoded]
    · simp only [herror]
  · rename_i e
    rw [hscan] at e
    cases e
  · rename_i e
    rw [hscan] at e
    cases e

theorem readString_unterminated {start : Nat} (hscan : scanQuoted c.rest = .unterminated) :
    readString start c =
      .error ⟨.unterminatedString, ⟨start, c.offset + byteLength c.rest⟩⟩ := by
  unfold readString
  split
  · rename_i e
    rw [hscan] at e
    cases e
  · rename_i e
    rw [hscan] at e
    cases e
  · rfl

theorem mirrors_string {rest : List Char} (h : Stands source depth s c)
    (hrest : c.rest = '"' :: rest) :
    Mirrors source depth (readString c.offset) ⟨rest, c.offset + 1⟩ (string source s) := by
  have hopened := h.step (x := '"') rfl hrest
  have hfinds : FindsEnd source s.pos _ (scanQuoted rest) _ := findsEnd_loop hopened
  generalize hscan : scanQuoted rest = scan at hfinds
  generalize hloop : findEnd source s.pos (s.moveTo (s.pos + 1)) = outcome at hfinds
  unfold findEnd at hloop
  rw [string, hloop]
  cases hfinds with
  | @closed token left =>
    have htoken : Cursor.Covers ⟨rest, c.offset + 1⟩ token
        ⟨left, c.offset + 1 + byteLength token⟩ := ⟨scanQuoted_sound hscan, rfl⟩
    have hlast := hopened.moveTo htoken
    obtain ⟨s', hcut, hs'⟩ :=
      cut_eq h hlast ((isMark_quote.covers hrest).trans htoken) (List.cons_ne_nil _ _)
    obtain ⟨hdecodes, hfails⟩ :=
      @readString_closed ⟨rest, c.offset + 1⟩ c.offset token left hscan
    simp only [Outcome.andThen_done, hcut, List.singleton_append, List.tail_cons]
    have hspan : (⟨s.pos, (s.moveTo (s.pos + 1)).pos + byteLength token⟩ : Span) =
        ⟨c.offset, c.offset + 1 + byteLength token⟩ := by rw [State.moveTo_pos, h.pos_eq]
    cases hunquote : unquote ⟨1, 1⟩ token with
    | ok result =>
      obtain ⟨decoded, more⟩ := result
      simp only [State.moveTo_pos] at hspan ⊢
      rw [hspan]
      exact .done (hdecodes decoded more hunquote) hs'
    | error error =>
      simp only [State.moveTo_pos] at hspan ⊢
      rw [hspan]
      exact .failed (hfails error hunquote) hs'.toKept
  | @control front =>
    rw [hopened.pos_eq]
    exact .failed (readString_control hscan) (hopened.toKept.moveTo _)
  | unterminated =>
    rw [← hopened.limit, State.moveTo_pos, h.pos_eq]
    exact .failed (readString_unterminated hscan) (h.toKept.moveTo _)

theorem simulates_word (w : Word) (node : Span → Node) :
    Simulates source depth (readWord w node) (word source w node) := by
  intro s c h
  obtain ⟨front, hsource, hpos⟩ := h.split
  have hlimit := h.limit
  have hdrop : (utf8 source).drop s.pos = utf8 c.rest := by
    rw [hsource, utf8_append, ← hpos, ← length_utf8, List.drop_left]
  rw [word, hdrop, length_utf8 w.name.toList]
  simp only [if_neg (show ¬ (utf8 source).length < s.pos by omega), List.isPrefixOf_iff_prefix,
    utf8_prefix_iff]
  split
  · rename_i hprefix
    obtain ⟨rest, hrest⟩ := hprefix
    have hcovers : c.Covers w.name.toList ⟨rest, c.offset + byteLength w.name.toList⟩ :=
      ⟨hrest.symm, rfl⟩
    refine .done (readWord_complete hcovers rfl ?_) (h.moveTo hcovers)
    rw [covering, h.pos_eq]
  · rename_i hprefix
    rw [h.failHere_eq]
    refine .failed ?_ h.toKept
    rw [readWord]
    exact dif_neg fun hword => hprefix (List.isPrefixOf_iff_prefix.mp hword.1)

theorem mirrors_number {first : Char} {rest : List Char} (h : Stands source depth s c)
    (hrest : c.rest = first :: rest) (hfirst : isNumberChar first = true) :
    Mirrors source depth readNumber c (number source s) := by
  generalize htoken : first :: rest.takeWhile isNumberChar = token
  have hrun : c.rest.takeWhile isNumberChar = token := by
    rw [hrest, List.takeWhile_cons_of_pos hfirst, htoken]
  have hcovers : c.Covers token ⟨rest.dropWhile isNumberChar, c.offset + byteLength token⟩ := by
    refine ⟨?_, rfl⟩
    rw [hrest, ← htoken, List.cons_append, List.takeWhile_append_dropWhile]
  have hne : token ≠ [] := by
    rw [← htoken]
    exact List.cons_ne_nil _ _
  obtain ⟨s', hcut, hs'⟩ := cut_eq h (h.moveTo hcovers) hcovers hne
  rw [number, skipRun_eq sameKind_number h, hrun]
  simp only [Outcome.andThen_done, hcut]
  simp only [State.moveTo_pos, h.pos_eq]
  cases hnumeral : Numeral.ofToken? token with
  | some n =>
    refine .done (follows_readNumber.complete hcovers ⟨n, ?_, rfl⟩ (stops_dropWhile _ _)) hs'
    exact Numeral.ofToken?_eq_some_iff.mp hnumeral
  | none =>
    refine .failed ?_ hs'.toKept
    unfold readNumber
    split
    · rename_i e
      rw [hrest] at e
      cases e
    · rename_i e
      rw [hrest] at e
      cases e
      simp only [htoken, hnumeral]
      rfl

end Scalars

/-! ## 2. Parts and members -/

section Parts

variable {α : Type} {closing : Char} (due : SyntaxCause) {part : Reader α}
  {bytes : State → Outcome α}

/-- What one turn over the parts can be, at a state with the same text after the blanks as the
    cursor `c`: the part fails, a comma or the closing bracket follows it, or neither does. -/
inductive MirrorsTurn (source : List Char) (depth : Nat) (closing : Char) (due : SyntaxCause)
    (part : Reader α) (c : Cursor) (s : State) (acc : List α) : Turn (List α) (List α) → Prop
  | part {e : SyntaxError} {last : State} :
      part c.skipBlanks = .error e → Kept source depth last →
      MirrorsTurn source depth closing due part c s acc (.leave (.failed e last))
  | comma {a : α} {d : Cursor} {rest : List Char} {next : State} :
      Reads part c.skipBlanks a d → d.skipBlanks.rest = ',' :: rest →
      Stands source depth next ⟨rest, d.skipBlanks.offset + 1⟩ →
      s.pos < next.pos → s.pos < (utf8 source).length →
      MirrorsTurn source depth closing due part c s acc (.again (acc ++ [a]) next)
  | closing {a : α} {d : Cursor} {rest : List Char} {next : State} :
      Reads part c.skipBlanks a d → d.skipBlanks.rest = closing :: rest → closing ≠ ',' →
      Stands source depth next ⟨rest, d.skipBlanks.offset + 1⟩ →
      MirrorsTurn source depth closing due part c s acc (.leave (.done (acc ++ [a]) next))
  | due {a : α} {d : Cursor} {last : State} :
      Reads part c.skipBlanks a d → d.skipBlanks.rest.head? ≠ some ',' →
      d.skipBlanks.rest.head? ≠ some closing → Kept source depth last →
      MirrorsTurn source depth closing due part c s acc
        (.leave (.failed (d.skipBlanks.fail due) last))

variable (hpart : Simulates source depth part bytes) (hclosing : closing.toNat < 0x80)
include hpart hclosing

theorem mirrorsTurn_partsTurn {s : State} {c c' : Cursor} (h : Stands source depth s c')
    (hblanks : c'.skipBlanks = c.skipBlanks) (acc : List α) :
    MirrorsTurn source depth closing due part c s acc
      (partsTurn source closing.toUInt8 due bytes acc s) := by
  obtain ⟨atPart, hskip, hatPart⟩ := skipBlanks_eq h
  rw [hblanks] at hatPart
  have hmirror := hpart hatPart
  generalize hread : bytes atPart = outcome at hmirror
  simp only [partsTurn, hskip, Outcome.andThen_done, hread]
  cases hmirror with
  | failed hfail hlast => exact .part hfail hlast
  | @done a afterPart d hreads hafterPart =>
    obtain ⟨atMark, hskip', hatMark⟩ := skipBlanks_eq hafterPart
    simp only [Outcome.andThen_done, hskip', hatMark.peek_eq_some_iff hclosing,
      hatMark.peek_eq_some_iff (by decide : ','.toNat < 0x80)]
    have hless : d.skipBlanks.rest.length < c'.rest.length := by
      obtain ⟨hshorter, -⟩ := hreads
      have hle := d.skipBlanks_length
      have hle' := c'.skipBlanks_length
      rw [hblanks] at hle'
      omega
    have hmoved := h.pos_lt_of_shorter hatMark hless
    have hlimit := hatMark.limit
    split
    · rename_i hcomma
      obtain ⟨rest, hrest⟩ := List.head?_eq_some_iff.mp hcomma
      refine .comma hreads hrest (hatMark.step rfl hrest) ?_ (by omega)
      rw [State.moveTo_pos]
      omega
    · rename_i hcomma
      split
      · rename_i hclose
        obtain ⟨rest, hrest⟩ := List.head?_eq_some_iff.mp hclose
        exact .closing hreads hrest (fun e => hcomma (e ▸ hclose))
          (hatMark.step (utf8Size_of_toNat_lt hclosing) hrest)
      · rename_i hclose
        rw [hatMark.failHere_eq]
        exact .due hreads hcomma hclose hatMark.toKept

/-- **The loop over the parts**, with those that it has read already. -/
theorem mirrors_parts {s : State} {c c' : Cursor} (h : Stands source depth s c')
    (hblanks : c'.skipBlanks = c.skipBlanks) (acc : List α) :
    (∃ parts d last, Reads (readParts closing due part) c parts d ∧ Stands source depth last d ∧
        loop (utf8 source).length (partsTurn source closing.toUInt8 due bytes) acc s =
          .done (acc ++ parts) last) ∨
      ∃ e last, readParts closing due part c = .error e ∧ Kept source depth last ∧
        loop (utf8 source).length (partsTurn source closing.toUInt8 due bytes) acc s =
          .failed e last := by
  -- on the text left: each comma leaves less of it
  induction hn : c.rest.length using Nat.strongRecOn generalizing s c c' acc with
  | ind n ih =>
    have hturns := mirrorsTurn_partsTurn due hpart hclosing h hblanks acc
    generalize hturn : partsTurn source closing.toUInt8 due bytes acc s = turn at hturns
    cases hturns with
    | part hfail hlast =>
      exact .inr ⟨_, _, readParts_eq_error_iff.mpr (.inl hfail), hlast, loop_leave hturn⟩
    | @comma a d rest next hreads hrest hnext hmoved hlimit =>
      have hless : rest.length < n := by
        obtain ⟨hshorter, -⟩ := hreads
        have hle := d.skipBlanks_length
        have hle' := c.skipBlanks_length
        rw [hrest, List.length_cons] at hle
        omega
      rw [loop_again hturn hmoved hlimit]
      rcases ih _ hless hnext rfl (acc ++ [a]) rfl with
        ⟨more, e, last, hmore, hlast, hloop⟩ | ⟨e, last, hfail, hlast, hloop⟩
      · refine .inl ⟨a :: more, e, last, readParts_eq_ok_iff.mpr ?_, hlast, ?_⟩
        · exact ⟨a, d, ',', rest, hreads, hrest, .inl ⟨rfl, more, rfl, hmore⟩⟩
        · rw [hloop, List.append_assoc, List.singleton_append]
      · refine .inr ⟨e, last, readParts_eq_error_iff.mpr ?_, hlast, hloop⟩
        exact .inr ⟨a, d, hreads, .inr ⟨rest, hrest, hfail⟩⟩
    | @closing a d rest next hreads hrest hmark hnext =>
      refine .inl ⟨[a], _, next, readParts_eq_ok_iff.mpr ?_, hnext, loop_leave hturn⟩
      exact ⟨a, d, closing, rest, hreads, hrest, .inr ⟨hmark, rfl, rfl, rfl⟩⟩
    | @due a d last hreads hcomma hclose hlast =>
      refine .inr ⟨_, last, readParts_eq_error_iff.mpr ?_, hlast, loop_leave hturn⟩
      exact .inr ⟨a, d, hreads, .inl ⟨hcomma, hclose, rfl⟩⟩

theorem simulates_between :
    Simulates source depth (readBetween closing due part)
      (between source closing.toUInt8 due bytes) := by
  intro s c h
  obtain ⟨s', hskip, hs'⟩ := skipBlanks_eq h
  simp only [between, hskip, Outcome.andThen_done, hs'.peek_eq_some_iff hclosing]
  split
  · rename_i hclose
    obtain ⟨rest, hrest⟩ := List.head?_eq_some_iff.mp hclose
    refine .done (readBetween_eq_ok_iff.mpr (.inl ⟨rfl, rest, hrest, rfl⟩)) ?_
    exact hs'.step (utf8Size_of_toNat_lt hclosing) hrest
  · rename_i hclose
    have hagain : c.skipBlanks.skipBlanks = c.skipBlanks :=
      @Cursor.skipBlanks_complete _ _ [] ⟨rfl, rfl⟩ (fun b hb => absurd hb List.not_mem_nil)
        (stops_dropWhile _ _)
    rcases mirrors_parts due hpart hclosing hs' hagain [] with
      ⟨parts, d, last, hparts, hlast, hloop⟩ | ⟨e, last, hfail, hlast, hloop⟩
    · rw [hloop]
      refine .done (readBetween_eq_ok_iff.mpr (.inr ⟨fun rest hrest => hclose ?_, hparts⟩)) hlast
      rw [hrest]
      rfl
    · rw [hloop]
      exact .failed (readBetween_eq_error_iff.mpr ⟨hclose, hfail⟩) hlast

end Parts

theorem simulates_member {element : Reader Node} {bytes : State → Outcome Node}
    (helement : Simulates source depth element bytes) :
    Simulates source depth (readMember element) (member source bytes) := by
  intro s c h
  simp only [member, h.peek_eq_some_iff (by decide : '"'.toNat < 0x80)]
  split
  · rename_i hquote
    obtain ⟨rest, hrest⟩ := List.head?_eq_some_iff.mp hquote
    have hkey := mirrors_string h hrest
    generalize string source s = outcome at hkey
    cases hkey with
    | failed hfail hlast =>
      exact .failed (readMember_eq_error_iff.mpr (.inr ⟨rest, hrest, .inl hfail⟩)) hlast
    | @done key afterKey d hkey hafterKey =>
      obtain ⟨atColon, hskip, hatColon⟩ := skipBlanks_eq hafterKey
      simp only [Outcome.andThen_done, hskip,
        hatColon.peek_eq_some_iff (by decide : ':'.toNat < 0x80)]
      split
      · rename_i hcolon
        obtain ⟨rest', hrest'⟩ := List.head?_eq_some_iff.mp hcolon
        obtain ⟨atValue, hskip', hatValue⟩ := skipBlanks_eq (hatColon.step (x := ':') rfl hrest')
        have hvalue := helement hatValue
        simp only [hskip', Outcome.andThen_done]
        generalize bytes atValue = outcome' at hvalue
        cases hvalue with
        | failed hfail hlast =>
          refine .failed (readMember_eq_error_iff.mpr (.inr ⟨rest, hrest, .inr ?_⟩)) hlast
          exact ⟨key, d, hkey, .inr ⟨rest', hrest', hfail⟩⟩
        | @done value last e hvalue hlast =>
          refine .done (readMember_eq_ok_iff.mpr ?_) hlast
          exact ⟨rest, key.1, key.2, d, rest', value, hrest, hkey, hrest', hvalue, rfl⟩
      · rename_i hcolon
        rw [hatColon.failHere_eq]
        refine .failed (readMember_eq_error_iff.mpr (.inr ⟨rest, hrest, .inr ?_⟩)) hatColon.toKept
        exact ⟨key, d, hkey, .inl ⟨hcolon, rfl⟩⟩
  · rename_i hquote
    rw [h.failHere_eq]
    exact .failed (readMember_eq_error_iff.mpr (.inl ⟨hquote, rfl⟩)) h.toKept

/-! ## 3. Values -/

section Values

variable {α : Type} {opening closing : Char} {due : SyntaxCause} {part : Reader α}
  {bytes : State → Outcome α} {node : List α → Span → Node} {s : State} {c : Cursor}
  {rest : List Char}

/-- **A bracket is counted while its parts are read, and not after**, however that ends. -/
theorem mirrors_bracketed (hpart : Simulates source (depth + 1) part bytes)
    (hclosing : closing.toNat < 0x80) (hopening : opening.utf8Size = 1)
    (hdepth : depth < depthLimit) (h : Stands source depth s c) (hrest : c.rest = opening :: rest) :
    (∃ parts d last, Reads (readBetween closing due part) ⟨rest, c.offset + 1⟩ parts d ∧
        Stands source depth last d ∧
        deeper source (bracketed source closing.toUInt8 due bytes node) s =
          .done (node parts (c.spanTo d.offset)) last) ∨
      ∃ e last, readBetween closing due part ⟨rest, c.offset + 1⟩ = .error e ∧
        Kept source depth last ∧
        deeper source (bracketed source closing.toUInt8 due bytes node) s = .failed e last := by
  have hinner : Stands source (depth + 1) { s with depth := s.depth + 1 } c :=
    { depth_eq := congrArg (· + 1) h.depth_eq, proper := h.proper, pos_eq := h.pos_eq,
      reached := h.reached }
  have hbetween := simulates_between due hpart hclosing (hinner.step hopening hrest)
  have hleft : ∀ last : State, Kept source (depth + 1) last →
      Kept source depth { last with depth := last.depth - 1 } := fun last hlast =>
    ⟨Nat.sub_eq_of_eq_add hlast.depth_eq, hlast.proper⟩
  rw [deeper, if_neg (by rw [h.depth_eq]; omega), bracketed]
  generalize between source closing.toUInt8 due bytes _ = outcome at hbetween
  cases hbetween with
  | @done parts last d hreads hlast =>
    refine .inl ⟨parts, d, { last with depth := last.depth - 1 }, hreads, ?_, ?_⟩
    · exact { toKept := hleft last hlast.toKept, pos_eq := hlast.pos_eq,
              reached := hlast.reached }
    · simp only [Outcome.andThen_done, h.pos_eq, hlast.pos_eq, Cursor.spanTo]
  | @failed e last hfail hlast =>
    exact .inr ⟨e, { last with depth := last.depth - 1 }, hfail, hleft last hlast, rfl⟩

theorem deeper_at_limit {inner : State → Outcome α} (hdepth : depth = depthLimit)
    (h : Stands source depth s c) : deeper source inner s = .failed (c.fail .tooDeep) s := by
  rw [deeper, if_pos (by rw [h.depth_eq, hdepth]), h.failHere_eq]

theorem mirrors_stringValue (budget : Nat) (h : Stands source depth s c)
    (hrest : c.rest = '"' :: rest) :
    Mirrors source depth (readValue budget) c
      ((string source s).andThen fun token s => .done (.string token.1 token.2) s) := by
  have hstring := mirrors_string h hrest
  generalize string source s = outcome at hstring
  cases hstring with
  | done hreads hlast => exact .done (reads_of_readsValue (.string hrest hreads)) hlast
  | failed hfail hlast => exact .failed (readValue_of_failsValue (.string hrest hfail)) hlast

end Values

section Dispatch

variable {budget : Nat} {bytes : State → Outcome Node} {s : State} {c : Cursor} {rest : List Char}
  (hbudget : depth + budget = depthLimit)
  (helement : ∀ b, budget = b + 1 → Simulates source (depth + 1) (readValue b) bytes)
include hbudget helement

theorem mirrors_object (h : Stands source depth s c) (hrest : c.rest = '\x7b' :: rest) :
    Mirrors source depth (readValue budget) c
      (deeper source
        (bracketed source '\x7d'.toUInt8 .commaOrBraceDue (member source bytes) .object) s) := by
  have hhead : c.rest.head? = some '\x7b' := by rw [hrest]; rfl
  have hclosing : '\x7d'.toNat < 0x80 := by decide
  cases budget with
  | zero =>
    rw [deeper_at_limit hbudget h]
    exact .failed (readValue_of_failsValue (.deep (.inl hhead))) h.toKept
  | succ b =>
    have hmember := simulates_member (helement b rfl)
    rcases mirrors_bracketed hmember hclosing rfl (by omega) h hrest with
      ⟨members, d, last, hreads, hlast, hdone⟩ | ⟨e, last, hfail, hlast, hfailed⟩
    · rw [hdone]
      exact .done (reads_of_readsValue (.object hrest hreads)) hlast
    · rw [hfailed]
      exact .failed (readValue_of_failsValue (.object hrest hfail)) hlast

theorem mirrors_array (h : Stands source depth s c) (hrest : c.rest = '[' :: rest) :
    Mirrors source depth (readValue budget) c
      (deeper source (bracketed source ']'.toUInt8 .commaOrBracketDue bytes .array) s) := by
  have hhead : c.rest.head? = some '[' := by rw [hrest]; rfl
  have hclosing : ']'.toNat < 0x80 := by decide
  cases budget with
  | zero =>
    rw [deeper_at_limit hbudget h]
    exact .failed (readValue_of_failsValue (.deep (.inr hhead))) h.toKept
  | succ b =>
    rcases mirrors_bracketed (helement b rfl) hclosing rfl (by omega) h hrest with
      ⟨items, d, last, hreads, hlast, hdone⟩ | ⟨e, last, hfail, hlast, hfailed⟩
    · rw [hdone]
      exact .done (reads_of_readsValue (.array hrest hreads)) hlast
    · rw [hfailed]
      exact .failed (readValue_of_failsValue (.array hrest hfail)) hlast

/-- **A value is mirrored**, if the values in it are, one level deeper. -/
theorem simulates_dispatch : Simulates source depth (readValue budget) (dispatch source bytes) := by
  intro s c h
  cases hrest : c.rest with
  | nil =>
    have hpeek : peek source s = none := by rw [h.peek_eq, hrest]; rfl
    simp only [dispatch, hpeek]
    rw [h.failHere_eq]
    exact .failed (readValue_of_failsValue (.empty hrest)) h.toKept
  | cons first rest =>
    have hhead : c.rest.head? = some first := by rw [hrest]; rfl
    -- the tests of the first byte become tests of the first character
    simp only [dispatch, h.peek_cons hrest, isDigitByte_leadByte,
      leadByte_eq_iff (by decide : '\x7b'.toNat < 0x80),
      leadByte_eq_iff (by decide : '['.toNat < 0x80),
      leadByte_eq_iff (by decide : '"'.toNat < 0x80),
      leadByte_eq_iff (by decide : 't'.toNat < 0x80),
      leadByte_eq_iff (by decide : 'f'.toNat < 0x80),
      leadByte_eq_iff (by decide : 'n'.toNat < 0x80),
      leadByte_eq_iff (by decide : '-'.toNat < 0x80)]
    by_cases hbrace : first = '\x7b'
    · rw [if_pos hbrace]
      exact mirrors_object hbudget helement h (hbrace ▸ hrest)
    by_cases hbracket : first = '['
    · rw [if_neg hbrace, if_pos hbracket]
      exact mirrors_array hbudget helement h (hbracket ▸ hrest)
    by_cases hquote : first = '"'
    · rw [if_neg hbrace, if_neg hbracket, if_pos hquote]
      exact mirrors_stringValue budget h (hquote ▸ hrest)
    rw [if_neg hbrace, if_neg hbracket, if_neg hquote]
    by_cases htrue : first = 't'
    · rw [if_pos htrue]
      exact (simulates_word _ _ h).lift
        (fun _ _ hreads => reads_of_readsValue (.true (htrue ▸ hhead) hreads))
        (fun _ hfail => readValue_of_failsValue (.true (htrue ▸ hhead) hfail))
    by_cases hfalse : first = 'f'
    · rw [if_neg htrue, if_pos hfalse]
      exact (simulates_word _ _ h).lift
        (fun _ _ hreads => reads_of_readsValue (.false (hfalse ▸ hhead) hreads))
        (fun _ hfail => readValue_of_failsValue (.false (hfalse ▸ hhead) hfail))
    by_cases hnull : first = 'n'
    · rw [if_neg htrue, if_neg hfalse, if_pos hnull]
      exact (simulates_word _ _ h).lift
        (fun _ _ hreads => reads_of_readsValue (.null (hnull ▸ hhead) hreads))
        (fun _ hfail => readValue_of_failsValue (.null (hnull ▸ hhead) hfail))
    rw [if_neg htrue, if_neg hfalse, if_neg hnull]
    by_cases hnumber : first = '-' ∨ isDigit first = true
    · rw [if_pos hnumber]
      have hfirst : isNumberChar first = true := by
        rcases hnumber with rfl | hdigit
        · decide
        · rw [isNumberChar, hdigit, Bool.or_true]
      exact (mirrors_number h hrest hfirst).lift
        (fun _ _ hreads => reads_of_readsValue (.number hhead hnumber hreads))
        (fun _ hfail => readValue_of_failsValue (.number hhead hnumber hfail))
    · rw [if_neg hnumber, h.failHere_eq]
      obtain ⟨hminus, hdigit⟩ := not_or.mp hnumber
      refine .failed (readValue_of_failsValue (.stray hhead ?_ (Bool.not_eq_true _ ▸ hdigit)))
        h.toKept
      simp only [List.mem_cons, List.not_mem_nil, or_false, not_or]
      exact ⟨hbrace, hbracket, hquote, htrue, hfalse, hnull, hminus⟩

end Dispatch

/-- **All values are mirrored**, with a frame for each level of the budget. -/
theorem simulates_value {budget frames : Nat} (hbudget : depth + budget = depthLimit)
    (hframes : budget ≤ frames) :
    Simulates source depth (readValue budget) (value source frames) := by
  induction frames generalizing budget depth with
  | zero =>
    refine simulates_dispatch hbudget fun b hb => ?_
    omega
  | succ frames ih =>
    refine simulates_dispatch hbudget fun b hb => ih ?_ ?_
    · omega
    · omega

/-! ## 4. Documents -/

/-- The byte reader at the beginning of the text. -/
theorem stands_origin (source : List Char) : Stands source 0 ⟨0, 0, []⟩ ⟨source, 0⟩ where
  depth_eq := rfl
  proper := fun _ h => absurd h List.not_mem_nil
  pos_eq := rfl
  reached := ⟨[], rfl, rfl⟩

/-- **The byte reader gives what `Node.read` gives**, and all slices on the way are proper. -/
theorem parse_mirrors {frames : Nat} (hframes : depthLimit ≤ frames) :
    ∃ last, Kept source 0 last ∧
      parse source frames = Outcome.ofResult (Node.read source) last := by
  obtain ⟨atValue, hskip, hatValue⟩ := skipBlanks_eq (stands_origin source)
  have hvalue := simulates_value (Nat.zero_add depthLimit) hframes hatValue
  simp only [parse, hskip, Outcome.andThen_done]
  generalize value source frames atValue = outcome at hvalue
  cases hvalue with
  | @failed e last hfail hlast =>
    refine ⟨last, hlast, ?_⟩
    rw [read_eq_error_iff.mpr (.inl hfail)]
    rfl
  | @done node afterValue d hreads hafterValue =>
    obtain ⟨last, hskip', hlast⟩ := skipBlanks_eq hafterValue
    have hlimit := hlast.limit
    refine ⟨last, hlast.toKept, ?_⟩
    simp only [Outcome.andThen_done, hskip']
    cases hrest : d.skipBlanks.rest with
    | nil =>
      rw [hrest, byteLength_nil] at hlimit
      rw [if_neg (by omega), read_eq_ok_iff.mpr ⟨d, hreads, hrest⟩]
      rfl
    | cons x rest =>
      have hne : d.skipBlanks.rest ≠ [] := by
        rw [hrest]
        exact List.cons_ne_nil _ _
      rw [if_pos (hlast.pos_lt hrest), hlast.failHere_eq,
        read_eq_error_iff.mpr (.inr ⟨node, d, hreads, hne, rfl⟩)]
      rfl

/-- A value fails or is read, wherever between characters the reader stands and whatever the depth;
    a value that is read leaves the reader further on, between characters. -/
theorem value_ends {frames pos depth : Nat} (hframes : depthLimit ≤ frames)
    (hpos : Boundary source pos) (hdepth : depth ≤ depthLimit) :
    ∃ last, Kept source depth last ∧
      ((∃ e, value source frames ⟨pos, depth, []⟩ = .failed e last) ∨
        ∃ node, value source frames ⟨pos, depth, []⟩ = .done node last ∧ pos < last.pos ∧
          Boundary source last.pos) := by
  obtain ⟨front, rest, hsource, hfront⟩ := hpos
  have hstands : Stands source depth ⟨pos, depth, []⟩ ⟨rest, pos⟩ :=
    { depth_eq := rfl, proper := fun _ h => absurd h List.not_mem_nil, pos_eq := rfl,
      reached := ⟨front, hsource, by rw [hfront, Nat.zero_add]⟩ }
  have hvalue := simulates_value (Nat.add_sub_cancel' hdepth) (by omega : _ ≤ frames) hstands
  generalize houtcome : value source frames ⟨pos, depth, []⟩ = outcome at hvalue
  cases hvalue with
  | @failed e last hfail hlast => exact ⟨last, hlast, .inl ⟨e, rfl⟩⟩
  | @done node last d hreads hlast =>
    obtain ⟨-, hmoved, -⟩ := moves_value source frames houtcome
    obtain ⟨front', hsource', hfront'⟩ := hlast.split
    exact ⟨last, hlast.toKept, .inr ⟨node, rfl, hmoved, front', d.rest, hsource', hfront'⟩⟩

/-- **Reading by bytes goes wrong for no text.** With a frame for each level that is allowed, the
    reader ends as `Node.parse` does, with the value or with the error, and every slice that it took
    for a string or a number is a part of the text and not empty. Every turn of a loop that goes on
    has moved the position, in whatever state. And a value, wherever between characters it is read
    and at whatever depth, fails or leaves the position further on, and leaves the depth as it
    was. -/
theorem byte_reading_safe (source : String) (frames : Nat) (hframes : depthLimit ≤ frames) :
    (∃ last, parse source.toList frames = Outcome.ofResult (Node.parse source) last ∧
        ∀ span ∈ last.slices,
          Boundary source.toList span.start ∧ Boundary source.toList span.stop ∧
            span.start < span.stop ∧ span.stop ≤ (utf8 source.toList).length) ∧
      ((∀ p, Advancing (runTurn source.toList p)) ∧
        (∀ start, Advancing (stringTurn source.toList start)) ∧
        ∀ calls closing due,
          Advancing (partsTurn source.toList closing due (value source.toList calls)) ∧
            Advancing (partsTurn source.toList closing due
              (member source.toList (value source.toList calls)))) ∧
      ∀ pos depth, Boundary source.toList pos → depth ≤ depthLimit →
        ∃ last, last.depth = depth ∧
          ((∃ e, value source.toList frames ⟨pos, depth, []⟩ = .failed e last) ∨
            ∃ node, value source.toList frames ⟨pos, depth, []⟩ = .done node last ∧
              pos < last.pos ∧ Boundary source.toList last.pos) := by
  refine ⟨?_, ⟨advancing_runTurn, advancing_stringTurn, fun calls closing due => ?_⟩, ?_⟩
  · obtain ⟨last, hlast, hparse⟩ := parse_mirrors hframes
    refine ⟨last, hparse, fun span hspan => ?_⟩
    have hproper := hlast.proper span hspan
    rw [length_utf8]
    exact ⟨hproper.start, hproper.stop, hproper.nonempty, hproper.within⟩
  · have hvalue := moves_value source.toList calls
    exact ⟨advancing_partsTurn hvalue, advancing_partsTurn (moves_member hvalue)⟩
  · intro pos depth hpos hdepth
    obtain ⟨last, hlast, hends⟩ := value_ends hframes hpos hdepth
    exact ⟨last, hlast.depth_eq, hends⟩

/-- A string that is not closed, with a backslash before a letter of two bytes, and one at the
    end. -/
def danglingEscapes : String := "\"\\é\\"

/-- The search for its closing quote stands inside the letter, and then one byte past the end. -/
theorem byte_reading_safe_danglingEscapes :
    stringTurn danglingEscapes.toList 0 () ⟨1, 0, []⟩ = .again () ⟨3, 0, []⟩ ∧
      ¬ Boundary danglingEscapes.toList 3 ∧
      stringTurn danglingEscapes.toList 0 () ⟨4, 0, []⟩ = .again () ⟨6, 0, []⟩ ∧
      (utf8 danglingEscapes.toList).length = 5 ∧
      ∃ last, parse danglingEscapes.toList depthLimit =
        .failed ⟨.unterminatedString, ⟨0, 5⟩⟩ last := by
  refine ⟨rfl, ?_, rfl, by decide, ?_⟩
  · exact not_boundary_inside ['"', '\\'] ['\\'] Nat.one_pos (by decide)
  · obtain ⟨last, hparse, -⟩ :=
      (byte_reading_safe danglingEscapes depthLimit (Nat.le_refl _)).1
    have hscan : scanQuoted ['\\', 'é', '\\'] = .unterminated := by decide
    have hread : Node.parse danglingEscapes = .error ⟨.unterminatedString, ⟨0, 5⟩⟩ :=
      read_eq_error_iff.mpr (.inl (readValue_of_failsValue
        (.string rfl (@readString_unterminated ⟨['\\', 'é', '\\'], 1⟩ 0 hscan))))
    rw [hparse, hread]
    exact ⟨last, rfl⟩

end ByteReader

end SchemaCompiler
