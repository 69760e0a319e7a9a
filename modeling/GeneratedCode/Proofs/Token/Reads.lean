import Mathlib.Tactic
import Mathlib.Algebra.Order.Floor.Div
import GeneratedCode.Proofs.Token.First
import GeneratedCode.Proofs.Trivia.Joining

/-!
How much of a text is read to find its first token.

Each turn of reading in pieces looks for a token in all that has been read, and it may well find
another one than the turn before. `first_take` says that a part of a text that goes on past the
token of the whole has that very token; with `first_append` it follows that a turn stops exactly if
it has come far enough past the token of the whole text (`stops_iff`), whatever the turns before it
found. So the number of turns is known from the start (`readCount`).

* `reads_readPieces`: what each turn reads.
* `costs_readPieces`: what the turns cost, and what they come to.
* `costs_readFile`: the same for an open file. One that cannot be read as far as is needed makes as
  many turns as it can.
-/

namespace GeneratedCode

/-! ### Faults -/

namespace Fault

/-- How many of some pieces can be read. -/
def granted (fault : Option Fault) (pieces : ℕ) : ℕ :=
  match fault with
  | none => pieces
  | some fault => min fault.pieces pieces

@[simp] lemma granted_zero (fault : Option Fault) : granted fault 0 = 0 := by
  cases fault <;> simp [granted]

/-- Either not even one piece can be read, or one can, and what comes behind it is told by the fault
as it is then. -/
lemma eq_some_or_grants (fault : Option Fault) :
    (∃ why, fault = some ⟨0, why⟩) ∨ grants fault 1 = .ok () ∧ ∀ n,
      granted fault (n + 1) = granted (fault.map next) n + 1 ∧
        grants fault (n + 1) = grants (fault.map next) n := by
  rcases fault with _ | ⟨_ | pieces, why⟩
  · exact .inr ⟨rfl, fun n => ⟨rfl, rfl⟩⟩
  · exact .inl ⟨why, rfl⟩
  · exact .inr ⟨by simp [grants], fun n => by simp [granted, grants, next]⟩

end Fault

namespace Token

open Text Trivia

variable {s : Text} {size i n : ℕ} {fault : Option Fault}

/-! ### Parts of a text -/

/-- A token is the one of any part of the text that goes on past it. -/
lemma textAt_take (h : (textAt s).length < n) : textAt (s.take n) = textAt s := by
  cases s with
  | nil => rw [List.take_nil]
  | cons c s =>
      obtain ⟨m, rfl⟩ : ∃ m, n = m + 1 := ⟨n - 1, by omega⟩
      rw [List.take_succ_cons, textAt, textAt]
      rw [textAt] at h
      split
      · next hc =>
          rw [if_pos hc, List.length_cons] at h
          rw [← List.take_takeWhile, List.take_of_length_le (by omega)]
      · rfl

/-- **Less text**: a part of a text that goes on past its first token has the same one. -/
lemma first_take (h : (first s).endPosition < n) : first (s.take n) = first s := by
  rw [endPosition_first] at h
  have htext : (textAt (leadingOf s).rest).length < n - (leadingOf s).position := by omega
  have hempty : ((leadingOf s).rest.take (n - (leadingOf s).position)).isEmpty =
      (leadingOf s).rest.isEmpty := by
    cases (leadingOf s).rest with
    | nil => rw [List.take_nil]
    | cons c rest =>
        obtain ⟨k, hk⟩ : ∃ k, n - (leadingOf s).position = k + 1 :=
          ⟨n - (leadingOf s).position - 1, by omega⟩
        rw [hk]
        rfl
  rw [first, leadingOf_take (by omega), first, ofLeading, ofLeading]
  simp only [textAt_take htext, hempty]

/-- The token of a part of a text lies well inside that part if and only if the token of the whole
text does. -/
lemma endPosition_take_lt_iff {k : ℕ} :
    (first (s.take n)).endPosition + k < (s.take n).length ↔
      (first s).endPosition + k < (s.take n).length := by
  constructor
  · intro h
    have hsame := first_append (by omega : (first (s.take n)).endPosition < _) (s.drop n)
    rw [List.take_append_drop] at hsame
    rwa [hsame]
  · intro h
    have hpart : (first s).endPosition < n := by
      rw [List.length_take] at h
      omega
    rwa [first_take hpart]

/-! ### The number of turns -/

/-- How many pieces are read of a text: as many as it takes to come far enough past its first token,
or if there is not so much text, as many as there are and then an empty one. -/
def readCount (size : ℕ) (s : Text) : ℕ :=
  let far := (first s).endPosition + lookahead + 1
  if far ≤ s.length then far ⌈/⌉ size else s.length ⌈/⌉ size + 1

/-- The piece that a turn reads; the first turn is number 0. -/
def piece (size : ℕ) (s : Text) (i : ℕ) : Text :=
  (s.drop (i * size)).take size

/-- What has been read when a turn looks for the token. -/
def headAt (size : ℕ) (s : Text) (i : ℕ) : Text :=
  s.take ((i + 1) * size)

lemma take_append_piece (size : ℕ) (s : Text) (i : ℕ) :
    s.take (i * size) ++ piece size s i = headAt size s i := by
  rw [piece, headAt, Nat.succ_mul, List.take_add]

lemma length_piece (size : ℕ) (s : Text) (i : ℕ) :
    (piece size s i).length = min size (s.length - i * size) := by
  rw [piece, List.length_take, List.length_drop]

lemma isEmpty_piece_iff (hsize : 1 ≤ size) :
    (piece size s i).isEmpty = true ↔ s.length ≤ i * size := by
  rw [List.isEmpty_iff, ← List.length_eq_zero_iff, length_piece]
  omega

/-- **When a turn stops**: a turn is the last one if and only if there are no more turns to make,
and it does not matter which token it has found. -/
lemma stops_iff (hsize : 1 ≤ size) (s : Text) (i : ℕ) :
    (piece size s i).isEmpty ∨
        (first (headAt size s i)).endPosition + lookahead < (headAt size s i).length ↔
      readCount size s ≤ i + 1 := by
  have hfar : (first (headAt size s i)).endPosition + lookahead < (headAt size s i).length ↔
      (first s).endPosition + lookahead + 1 ≤ min ((i + 1) * size) s.length := by
    rw [headAt, endPosition_take_lt_iff, List.length_take, Nat.lt_iff_add_one_le]
  rw [hfar, isEmpty_piece_iff hsize, readCount]
  have hnext : (i + 1) * size = i * size + size := Nat.succ_mul i size
  split
  · next h =>
      rw [ceilDiv_le_iff_le_mul hsize, Nat.mul_comm size]
      omega
  · next h =>
      rw [Nat.add_le_add_iff_right, ceilDiv_le_iff_le_mul hsize, Nat.mul_comm size]
      omega

lemma readCount_pos (hsize : 1 ≤ size) (s : Text) : 0 < readCount size s := by
  rw [readCount]
  split
  · rw [Nat.pos_iff_ne_zero]
    intro hzero
    have hle := (ceilDiv_le_iff_le_mul hsize).1 hzero.le
    omega
  · omega

/-! ### What the turns read and cost -/

/-- How many characters the turns read. -/
def pieceLengths (size : ℕ) (s : Text) : List ℕ :=
  (List.range (readCount size s)).map fun i => (piece size s i).length

lemma drop_piece (size : ℕ) (s : Text) (i : ℕ) :
    (s.drop (i * size)).drop size = s.drop ((i + 1) * size) := by
  rw [List.drop_drop, Nat.succ_mul]

/-- What the last turn has read has the same token as the whole text. -/
lemma first_headAt (hsize : 1 ≤ size) (h : readCount size s ≤ i + 1) :
    first (headAt size s i) = first s := by
  rcases (stops_iff hsize s i).2 h with hempty | hfar
  · have hall := (isEmpty_piece_iff hsize).1 hempty
    rw [headAt, List.take_of_length_le (hall.trans (Nat.mul_le_mul_right size i.le_succ))]
  · have hbefore : (first (headAt size s i)).endPosition < (headAt size s i).length := by omega
    rw [← first_append hbefore (s.drop ((i + 1) * size)), headAt, List.take_append_drop]

lemma costs_readPiece (fault : Option Fault) (length : ℕ) :
    Costs (readPiece fault length) 0 ((Fault.grants fault 1).mapError .cannotRead) := by
  rw [readPiece]
  cases Fault.grants fault 1 with
  | error why => exact Paced.bind_error (Paced.ofExcept _)
  | ok => exact Costs.bind_free (Paced.ofExcept _) (Paced.noteRead length)

/-- One turn for which there is a piece: it costs the checks of all that has been read by then, and
ends in the token of the whole text if it is the last one. -/
lemma costs_turn (hsize : 1 ≤ size) (hpiece : Fault.grants fault 1 = .ok ()) {m : ℕ}
    {result : Except Failure Token}
    (hlast : readCount size s ≤ i + 1 → m = 0 ∧ result = .ok (first s))
    (hgoes : i + 1 < readCount size s →
      Costs (readFrom size (fault.map Fault.next) (headAt size s i) (s.drop ((i + 1) * size))) m
        result) :
    Costs (readFrom size fault (s.take (i * size)) (s.drop (i * size)))
      (leadingTurns (headAt size s i) + m) result := by
  have hread := costs_readPiece fault (piece size s i).length
  rw [hpiece] at hread
  have hstops := stops_iff hsize s i
  rw [readFrom, ← piece, take_append_piece, drop_piece]
  refine Costs.bind_free hread (Costs.bind (costs_read _) ?_)
  by_cases hstop : readCount size s ≤ i + 1
  · obtain ⟨rfl, rfl⟩ := hlast hstop
    rw [dif_pos (hstops.2 hstop), first_headAt hsize hstop]
    exact Paced.pure _
  · rw [dif_neg fun h => hstop (hstops.1 h)]
    exact hgoes (Nat.lt_of_not_le hstop)

/-- A turn for which there is no piece fails before it looks for a token. -/
lemma costs_turn_of_refusal (size : ℕ) (head rest : Text) (why : Refusal) :
    Costs (readFrom size (some ⟨0, why⟩) head rest) 0 (.error (.cannotRead (.refused why))) := by
  rw [readFrom]
  exact Paced.bind_error (costs_readPiece (some ⟨0, why⟩) _)

/-- One turn: unless it is cancelled, it notes the piece that it reads, and is the last one or goes
on to the next. -/
lemma exists_outcome_turn (hsize : 1 ≤ size) (s : Text) (i : ℕ) {call : Call}
    (hgoes : ((readFrom size none (s.take (i * size)) (s.drop (i * size))).outcome call).1 ≠
      .error .cancelled) :
    ∃ after : Call, after.reads = (piece size s i).length :: call.reads ∧
      (readFrom size none (s.take (i * size)) (s.drop (i * size))).outcome call =
        if readCount size s ≤ i + 1 then (.ok (first (headAt size s i)), after)
        else (readFrom size none (headAt size s i) (s.drop ((i + 1) * size))).outcome after := by
  let noted : Call := { call with reads := (piece size s i).length :: call.reads }
  have hstops := stops_iff hsize s i
  refine ⟨noted.ticks (leadingTurns (headAt size s i)), rfl, ?_⟩
  rw [outcome_readFrom, ← piece, take_append_piece, outcome_read_eq, drop_piece] at hgoes ⊢
  by_cases haffords : noted.affords (leadingTurns (headAt size s i)) = true
  · rw [if_pos haffords]
    by_cases hlast : readCount size s ≤ i + 1
    · rw [if_pos hlast]
      exact if_pos (hstops.2 hlast)
    · rw [if_neg hlast]
      exact if_neg fun h => hlast (hstops.1 h)
  · rw [if_neg haffords] at hgoes
    contradiction

/-- Reading on from a turn that is to be made costs the checks of that turn and all later ones, as
far as there are pieces for them. If there are enough, it ends in the token of the whole text. -/
lemma costs_readFrom (hsize : 1 ≤ size) (h : readCount size s = i + n + 1) :
    Costs (readFrom size fault (s.take (i * size)) (s.drop (i * size)))
      ((List.range' i (Fault.granted fault (n + 1))).map fun j =>
        leadingTurns (headAt size s j)).sum
      (((Fault.grants fault (n + 1)).mapError .cannotRead).map fun _ => first s) := by
  -- on the turns that are left behind this one; the fault comes nearer with each
  induction n generalizing i fault with
  | zero =>
      rcases Fault.eq_some_or_grants fault with ⟨why, rfl⟩ | ⟨hpiece, hnext⟩
      · exact costs_turn_of_refusal size _ _ why
      · rw [(hnext 0).1, hpiece, Fault.granted_zero]
        have hlast : readCount size s ≤ i + 1 := by omega
        exact costs_turn hsize hpiece (fun _ => ⟨rfl, rfl⟩) fun hgoes => absurd hlast hgoes.not_ge
  | succ n ih =>
      rcases Fault.eq_some_or_grants fault with ⟨why, rfl⟩ | ⟨hpiece, hnext⟩
      · exact costs_turn_of_refusal size _ _ why
      · obtain ⟨hgranted, hgrants⟩ := hnext (n + 1)
        have hgoes : i + 1 < readCount size s := by omega
        have hrest := @ih (i + 1) (fault.map Fault.next) (by omega)
        rw [hgranted, hgrants, List.range'_succ, List.map_cons, List.sum_cons]
        exact costs_turn hsize hpiece (fun hlast => absurd hgoes hlast.not_gt) fun _ => hrest

/-- It reads the pieces of that turn and all later ones, unless it is cancelled. -/
lemma reads_from (hsize : 1 ≤ size) (h : readCount size s = i + n + 1) {call : Call}
    (hgoes : ((readFrom size none (s.take (i * size)) (s.drop (i * size))).outcome call).1 ≠
      .error .cancelled) :
    ((readFrom size none (s.take (i * size)) (s.drop (i * size))).outcome call).2.reads =
      ((List.range' i (n + 1)).map fun j => (piece size s j).length).reverse ++ call.reads := by
  induction n generalizing i call with
  | zero =>
      obtain ⟨after, hreads, hturn⟩ := exists_outcome_turn hsize s i hgoes
      rw [hturn, if_pos (by omega), hreads]
      simp
  | succ n ih =>
      obtain ⟨after, hreads, hturn⟩ := exists_outcome_turn hsize s i hgoes
      rw [if_neg (by omega), headAt] at hturn
      rw [hturn] at hgoes ⊢
      rw [ih (by omega) hgoes, hreads, List.range'_succ (n := n + 1), List.map_cons,
        List.reverse_cons, List.append_assoc]
      rfl

/-- What the turns look for a token in, as far as they come. -/
def heads (size : ℕ) (fault : Option Fault) (s : Text) : List Text :=
  (List.range (Fault.granted fault (readCount size s))).map (headAt size s)

/-- The first token of a text, if it can be read as far as is needed. -/
def firstRead (size : ℕ) (fault : Option Fault) (s : Text) : Except Failure Token :=
  ((Fault.grants fault (readCount size s)).mapError .cannotRead).map fun _ => first s

@[simp] lemma firstRead_none (size : ℕ) (s : Text) : firstRead size none s = .ok (first s) := rfl

/-- **What the turns cost**: the checks of all that has been read by each of them. They end in the
first token of the whole text, unless what is needed of it cannot be read. -/
lemma costs_readPieces (hsize : 1 ≤ size) (fault : Option Fault) (s : Text) :
    Costs (readPieces size fault s) ((heads size fault s).map leadingTurns).sum
      (firstRead size fault s) := by
  obtain ⟨n, hn⟩ := Nat.exists_eq_add_one.2 (readCount_pos hsize s)
  have h := @costs_readFrom s size 0 n fault hsize (hn.trans (by rw [Nat.zero_add]))
  rw [Nat.zero_mul, List.take_zero, List.drop_zero, ← hn, ← List.range_eq_range'] at h
  rw [heads, List.map_map]
  exact h

/-- **What the turns read**, unless they are cancelled. -/
lemma reads_readPieces (hsize : 1 ≤ size) (s : Text) {call : Call}
    (hgoes : ((readPieces size none s).outcome call).1 ≠ .error .cancelled) :
    ((readPieces size none s).outcome call).2.reads =
      (pieceLengths size s).reverse ++ call.reads := by
  obtain ⟨n, hn⟩ := Nat.exists_eq_add_one.2 (readCount_pos hsize s)
  have h := @reads_from s size 0 n hsize (hn.trans (by rw [Nat.zero_add])) call
  rw [Nat.zero_mul, List.take_zero, List.drop_zero, ← hn, ← List.range_eq_range'] at h
  exact h hgoes

/-! ### Open files -/

/-- The first token of an open file, in the encoding of that name; where the pieces are empty, that
of no text. -/
def firstOfFile (encoding : String) (size : ℕ) (file : OpenFile) : Except Failure Token :=
  match Encoding.ofName? encoding with
  | none => .error (.unknownEncoding encoding)
  | some known =>
      if size = 0 then .ok (first []) else textOf known file >>= firstRead size file.fault

/-- How many checks it takes to find it. -/
def fileTurns (encoding : String) (size : ℕ) (file : OpenFile) : ℕ :=
  match Encoding.ofName? encoding with
  | none => 0
  | some known =>
      if size = 0 then 0
      else
        match textOf known file with
        | .error _ => 0
        | .ok s => ((heads size file.fault s).map leadingTurns).sum

/-- **Reading a file** makes those checks and ends in that token. -/
lemma costs_readFile (encoding : String) (size : ℕ) (file : OpenFile) :
    Costs (readFile encoding size file) (fileTurns encoding size file)
      (firstOfFile encoding size file) := by
  unfold readFile firstOfFile fileTurns
  cases Encoding.ofName? encoding with
  | none => exact Paced.throw _
  | some known =>
      by_cases hsize : size = 0
      · subst hsize
        simp only [if_true]
        have hread := costs_read []
        rw [show leadingTurns [] = 0 by simp [leadingTurns, turns]] at hread
        -- with empty pieces the first turn is the last
        rw [readPieces, readFrom]
        refine Costs.bind_free (costs_readPiece none _) (Costs.bind_free hread ?_)
        rw [dif_pos (.inl rfl)]
        exact Paced.pure _
      · simp only [if_neg hsize]
        cases htext : textOf known file with
        | error failure => exact Paced.bind_error (Paced.ofExcept (.error failure))
        | ok s =>
            exact Costs.bind_free (Paced.ofExcept (.ok s))
              (costs_readPieces (by omega) file.fault s)

section

variable {encoding : String} {known : Encoding} {file : OpenFile}

/-- Where the bytes are text, its first token is found if the fault allows it. -/
lemma firstOfFile_of_decode (hsize : 1 ≤ size) (hknown : Encoding.ofName? encoding = some known)
    (hdecode : known.decode file.bytes = .ok s) :
    firstOfFile encoding size file = firstRead size file.fault s := by
  simp only [firstOfFile, hknown, if_neg (Nat.one_le_iff_ne_zero.1 hsize), textOf, hdecode]
  rcases Fault.eq_some_or_grants file.fault with ⟨why, hfault⟩ | ⟨hpiece, -⟩
  · have hneeded : ¬ readCount size s ≤ 0 := Nat.not_le.2 (readCount_pos hsize s)
    rw [firstRead, hfault, Fault.grants, Fault.grants, if_neg hneeded]
    rfl
  · rw [hpiece]
    rfl

lemma fileTurns_of_decode (hsize : 1 ≤ size) (hknown : Encoding.ofName? encoding = some known)
    (hdecode : known.decode file.bytes = .ok s) :
    fileTurns encoding size file = ((heads size file.fault s).map leadingTurns).sum := by
  simp only [fileTurns, hknown, if_neg (Nat.one_le_iff_ne_zero.1 hsize), textOf, hdecode]
  rcases Fault.eq_some_or_grants file.fault with ⟨why, hfault⟩ | ⟨hpiece, -⟩
  · rw [heads, hfault, Fault.granted, Nat.zero_min]
    rfl
  · rw [hpiece]
    rfl

/-- A token that is found is the first one of the text that the bytes are. -/
lemma exists_of_firstOfFile (hsize : 1 ≤ size) {token : Token}
    (h : firstOfFile encoding size file = .ok token) :
    ∃ known t, Encoding.ofName? encoding = some known ∧ known.decode file.bytes = .ok t ∧
      token = first t := by
  cases hknown : Encoding.ofName? encoding with
  | none =>
      rw [firstOfFile, hknown] at h
      contradiction
  | some known =>
      cases hdecode : known.decode file.bytes with
      | error failure =>
          simp only [firstOfFile, hknown, if_neg (Nat.one_le_iff_ne_zero.1 hsize), textOf,
            hdecode] at h
          cases hpiece : Fault.grants file.fault 1 <;> rw [hpiece] at h <;> contradiction
      | ok t =>
          rw [firstOfFile_of_decode hsize hknown hdecode, firstRead] at h
          cases hneeded : Fault.grants file.fault (readCount size t) with
          | error why =>
              rw [hneeded] at h
              contradiction
          | ok =>
              rw [hneeded] at h
              exact ⟨known, t, rfl, hdecode, (Except.ok.inj h).symm⟩

end

/-! ### As much as is needed -/

/-- How much is read, piece by piece, of a text of some length whose first token ends at `stop`. -/
structure ReadsAsNeeded (size length stop : ℕ) (reads : List ℕ) : Prop where
  /-- Where the text goes on long enough, what comes far enough past the token is read and no more.
  -/
  far : stop + 5 ≤ length → reads.length = (stop + 5) ⌈/⌉ size ∧ 0 ∉ reads
  /-- Any other text is read to its end, which is found out by one empty piece. -/
  near : length < stop + 5 →
    ∃ full, reads = full ++ [0] ∧ full.length = length ⌈/⌉ size ∧ 0 ∉ full
  whole : ∀ n ∈ reads.dropLast.dropLast, n = size
  sum_eq : reads.sum = min length (size * reads.length)

lemma sum_length_piece (size : ℕ) (s : Text) (n : ℕ) :
    ((List.range n).map fun i => (piece size s i).length).sum = min s.length (size * n) := by
  induction n with
  | zero => simp
  | succ n ih =>
      rw [List.range_succ, List.map_append, List.sum_append, ih, List.map_singleton,
        List.sum_singleton, length_piece, Nat.mul_succ, Nat.mul_comm n]
      omega

/-- No turn but the last one reads an empty piece. -/
lemma lt_length_of_lt_readCount (hsize : 1 ≤ size) (h : i + 1 < readCount size s) :
    i * size < s.length := by
  have hgoes : ¬ (piece size s i).isEmpty = true := fun hempty =>
    h.not_ge ((stops_iff hsize s i).1 (.inl hempty))
  rwa [isEmpty_piece_iff hsize, Nat.not_le] at hgoes

/-- Any turn before that reads a whole piece. -/
lemma length_piece_of_lt (hsize : 1 ≤ size) (h : i + 2 < readCount size s) :
    (piece size s i).length = size := by
  have hlt := lt_length_of_lt_readCount hsize h
  rw [Nat.succ_mul] at hlt
  rw [length_piece]
  omega

/-- The last turn apart. -/
lemma pieceLengths_eq_concat (h : readCount size s = n + 1) : pieceLengths size s =
    ((List.range n).map fun i => (piece size s i).length) ++ [(piece size s n).length] := by
  rw [pieceLengths, h, List.range_succ, List.map_append, List.map_singleton]

lemma zero_notMem_before (hsize : 1 ≤ size) (h : readCount size s = n + 1) :
    0 ∉ (List.range n).map fun i => (piece size s i).length := by
  intro hzero
  obtain ⟨i, hi, hempty⟩ := List.mem_map.1 hzero
  have hlt := lt_length_of_lt_readCount hsize (by simpa [h] using hi : i + 1 < readCount size s)
  rw [length_piece] at hempty
  omega

/-- **As much as is needed** is read by the turns. -/
lemma readsAsNeeded_pieceLengths (hsize : 1 ≤ size) (s : Text) :
    ReadsAsNeeded size s.length (first s).endPosition (pieceLengths size s) := by
  obtain ⟨n, hn⟩ := Nat.exists_eq_add_one.2 (readCount_pos hsize s)
  have hlengths := pieceLengths_eq_concat hn
  have hbefore := zero_notMem_before hsize hn
  have hcount : readCount size s = if (first s).endPosition + 5 ≤ s.length then
      ((first s).endPosition + 5) ⌈/⌉ size else s.length ⌈/⌉ size + 1 := rfl
  refine ⟨fun hfar => ?_, fun hnear => ?_, fun m hm => ?_, ?_⟩
  · rw [if_pos hfar] at hcount
    have hlast : ¬ ((first s).endPosition + 5) ⌈/⌉ size ≤ n := by omega
    rw [ceilDiv_le_iff_le_mul hsize, Nat.mul_comm] at hlast
    refine ⟨by simpa [pieceLengths] using hcount, ?_⟩
    rw [hlengths, List.mem_append, List.mem_singleton, length_piece]
    rintro (hzero | hzero)
    · exact hbefore hzero
    · omega
  · rw [if_neg (by omega)] at hcount
    have hall : s.length ⌈/⌉ size ≤ n := by omega
    rw [ceilDiv_le_iff_le_mul hsize, Nat.mul_comm] at hall
    refine ⟨_, hlengths.trans ?_, ?_, hbefore⟩
    · rw [length_piece, show min size (s.length - n * size) = 0 by omega]
    · rw [List.length_map, List.length_range]
      omega
  · rw [hlengths, List.dropLast_concat] at hm
    cases n with
    | zero => simp at hm
    | succ n =>
        rw [List.range_succ, List.map_append, List.map_singleton, List.dropLast_concat] at hm
        obtain ⟨i, hi, rfl⟩ := List.mem_map.1 hm
        exact length_piece_of_lt hsize (by simpa [hn] using hi)
  · rw [pieceLengths, List.length_map, List.length_range, sum_length_piece]

end Token

end GeneratedCode
