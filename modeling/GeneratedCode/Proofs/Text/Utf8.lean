import Mathlib.Tactic
import GeneratedCode.Text.Utf8

/-!
Decoding UTF-8 undoes encoding.

`piece_encodeChar` reads one encoded character back, whatever bytes follow it: the first byte gives
the number of bytes (`piece_one` to `piece_four`) and the bounds of the second, which shut out only
what a shorter form or no character would be encoded as. `decodeLossy_encode` follows by induction
on the text.
-/

namespace GeneratedCode

namespace Text

namespace Utf8

/-- What the first byte of a character says, by its number. -/
lemma form?_eq (b : UInt8) :
    form? b =
      if b.toNat < 0x80 then some (0, 0x80, 0xBF, b.toNat)
      else if b.toNat < 0xC2 then none
      else if b.toNat < 0xE0 then some (1, 0x80, 0xBF, b.toNat - 0xC0)
      else if b.toNat = 0xE0 then some (2, 0xA0, 0xBF, 0)
      else if b.toNat = 0xED then some (2, 0x80, 0x9F, 0xD)
      else if b.toNat < 0xF0 then some (2, 0x80, 0xBF, b.toNat - 0xE0)
      else if b.toNat = 0xF0 then some (3, 0x90, 0xBF, 0)
      else if b.toNat < 0xF4 then some (3, 0x80, 0xBF, b.toNat - 0xF0)
      else if b.toNat = 0xF4 then some (3, 0x80, 0x8F, 4)
      else none := by
  simp only [form?, UInt8.lt_iff_toNat_lt, ← UInt8.toNat_inj, UInt8.reduceToNat]

lemma toNat_ofNat {n : ℕ} (h : n < 256) : (UInt8.ofNat n).toNat = n := by
  rw [UInt8.toNat_ofNat', Nat.mod_eq_of_lt h]

/-- A byte within its bounds adds six bits. -/
lemma goOn_cons {missing value count k : ℕ} {lo hi : UInt8} {bytes : List UInt8} (hk : k < 64)
    (hlo : lo.toNat ≤ k + 0x80) (hhi : k + 0x80 ≤ hi.toNat) :
    goOn (missing + 1) lo hi value count (UInt8.ofNat (k + 0x80) :: bytes) =
      goOn missing 0x80 0xBF (value * 64 + k) (count + 1) bytes := by
  have hb := toNat_ofNat (n := k + 0x80) (by omega)
  rw [goOn, if_pos]
  · rw [hb, Nat.add_sub_cancel]
  · simp only [UInt8.le_iff_toNat_le, hb, hlo, hhi, decide_true, Bool.and_true]

/-- Between its usual bounds, a byte that goes on adds six bits. -/
lemma goOn_cons_mod {missing value count n : ℕ} {bytes : List UInt8} :
    goOn (missing + 1) 0x80 0xBF value count (UInt8.ofNat (n % 64 + 0x80) :: bytes) =
      goOn missing 0x80 0xBF (value * 64 + n % 64) (count + 1) bytes := by
  have hn := Nat.mod_lt n (show 64 > 0 by omega)
  exact goOn_cons hn (Nat.le_add_left _ _) (by simp only [UInt8.reduceToNat]; omega)

lemma goOn_last {value count : ℕ} {lo hi : UInt8} {bytes : List UInt8} {c : Char}
    (h : value = c.toNat) : goOn 0 lo hi value count bytes = (.char c count, bytes) := by
  rw [goOn, h, Char.ofNat_toNat]

section

variable {c : Char} {n : ℕ}

/-- A character of one byte. -/
lemma piece_one (hn : c.toNat = n) (hlt : n < 0x80) (rest : List UInt8) :
    piece (UInt8.ofNat n) rest = (.char c 1, rest) := by
  rw [piece, form?_eq, toNat_ofNat (by omega), if_pos hlt]
  exact goOn_last hn.symm

/-- A character of two bytes. -/
lemma piece_two (hn : c.toNat = n) (hlt : 0x7F < n ∧ n < 0x800) (rest : List UInt8) :
    piece (UInt8.ofNat (n / 64 % 32 + 0xC0)) (UInt8.ofNat (n % 64 + 0x80) :: rest) =
      (.char c 2, rest) := by
  rw [piece, form?_eq, toNat_ofNat (by omega), if_neg (by omega), if_neg (by omega),
    if_pos (by omega)]
  dsimp only
  rw [goOn_cons_mod]
  exact goOn_last (by omega)

/-- A character of three bytes; the second is bounded if the first is the lowest, or the one of the
surrogates. -/
lemma piece_three (hn : c.toNat = n) (hlt : 0x7FF < n ∧ n < 0x10000)
    (hvalid : n < 0xD800 ∨ 0xDFFF < n) (rest : List UInt8) :
    piece (UInt8.ofNat (n / 4096 % 16 + 0xE0))
      (UInt8.ofNat (n / 64 % 64 + 0x80) :: UInt8.ofNat (n % 64 + 0x80) :: rest) =
        (.char c 3, rest) := by
  have hmod : n / 64 % 64 < 64 := by omega
  rw [piece, form?_eq, toNat_ofNat (by omega), if_neg (by omega), if_neg (by omega),
    if_neg (by omega)]
  by_cases hlow : n / 4096 % 16 + 0xE0 = 0xE0
  · rw [if_pos hlow]
    dsimp only
    rw [goOn_cons hmod (by simp only [UInt8.reduceToNat]; omega)
      (by simp only [UInt8.reduceToNat]; omega), goOn_cons_mod]
    exact goOn_last (by omega)
  by_cases hhigh : n / 4096 % 16 + 0xE0 = 0xED
  · rw [if_neg hlow, if_pos hhigh]
    dsimp only
    rw [goOn_cons hmod (by simp only [UInt8.reduceToNat]; omega)
      (by simp only [UInt8.reduceToNat]; omega), goOn_cons_mod]
    exact goOn_last (by omega)
  rw [if_neg hlow, if_neg hhigh, if_pos (by omega)]
  dsimp only
  rw [goOn_cons_mod, goOn_cons_mod]
  exact goOn_last (by omega)

/-- A character of four bytes; the second is bounded if the first is the lowest or the highest. -/
lemma piece_four (hn : c.toNat = n) (hlt : 0xFFFF < n ∧ n < 0x110000) (rest : List UInt8) :
    piece (UInt8.ofNat (n / 262144 % 8 + 0xF0))
      (UInt8.ofNat (n / 4096 % 64 + 0x80) :: UInt8.ofNat (n / 64 % 64 + 0x80) ::
        UInt8.ofNat (n % 64 + 0x80) :: rest) = (.char c 4, rest) := by
  have hmod : n / 4096 % 64 < 64 := by omega
  rw [piece, form?_eq, toNat_ofNat (by omega), if_neg (by omega), if_neg (by omega),
    if_neg (by omega), if_neg (by omega), if_neg (by omega), if_neg (by omega)]
  by_cases hlow : n / 262144 % 8 + 0xF0 = 0xF0
  · rw [if_pos hlow]
    dsimp only
    rw [goOn_cons hmod (by simp only [UInt8.reduceToNat]; omega)
      (by simp only [UInt8.reduceToNat]; omega), goOn_cons_mod, goOn_cons_mod]
    exact goOn_last (by omega)
  by_cases hhigh : n / 262144 % 8 + 0xF0 < 0xF4
  · rw [if_neg hlow, if_pos hhigh]
    dsimp only
    rw [goOn_cons_mod, goOn_cons_mod, goOn_cons_mod]
    exact goOn_last (by omega)
  rw [if_neg hlow, if_neg hhigh, if_pos (by omega)]
  dsimp only
  rw [goOn_cons hmod (by simp only [UInt8.reduceToNat]; omega)
    (by simp only [UInt8.reduceToNat]; omega), goOn_cons_mod, goOn_cons_mod]
  exact goOn_last (by omega)

end

/-- An encoded character is read back, whatever follows it. -/
lemma piece_encodeChar (c : Char) (rest : List UInt8) :
    ∃ b bytes count, String.utf8EncodeChar c = b :: bytes ∧
      piece b (bytes ++ rest) = (.char c count, rest) := by
  have hvalid : c.toNat < 0xD800 ∨ 0xDFFF < c.toNat ∧ c.toNat < 0x110000 := c.valid
  have htoNat : c.val.toNat = c.toNat := rfl
  unfold String.utf8EncodeChar
  simp only [htoNat]
  split
  · next h1 => exact ⟨_, _, 1, rfl, piece_one rfl (by omega) rest⟩
  split
  · next h1 h2 => exact ⟨_, _, 2, rfl, piece_two rfl (by omega) rest⟩
  split
  · next h1 h2 h3 => exact ⟨_, _, 3, rfl, piece_three rfl (by omega) (by omega) rest⟩
  · next h1 h2 h3 => exact ⟨_, _, 4, rfl, piece_four rfl (by omega) rest⟩

lemma decodeLossyFrom_encode (done s : Text) :
    decodeLossyFrom done (encode s) = done.reverse ++ s := by
  induction s generalizing done with
  | nil => simp [encode, decodeLossyFrom]
  | cons c s ih =>
      obtain ⟨b, bytes, count, hchar, hpiece⟩ := piece_encodeChar c (encode s)
      have hencode : encode (c :: s) = b :: (bytes ++ encode s) := by
        rw [encode, List.flatMap_cons, hchar, List.cons_append]
        rfl
      rw [hencode, decodeLossyFrom]
      split
      · next h =>
          rw [hpiece] at h
          obtain ⟨hc, rfl⟩ := Prod.mk.inj h
          obtain ⟨rfl, -⟩ := Piece.char.inj hc
          rw [ih]
          simp
      · next h =>
          rw [hpiece] at h
          cases h

/-- **Decoding undoes encoding.** -/
lemma decodeLossy_encode (s : Text) : decodeLossy (encode s) = s :=
  decodeLossyFrom_encode [] s

end Utf8

end Text

end GeneratedCode
