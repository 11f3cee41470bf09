import PkgInfo.Text.Utf8
import PkgInfo.Proofs.Text.Lines

/-! Every text can be read back from its bytes, and the byte of a line feed stands in them only for a
line feed, so cutting bytes into lines is cutting the text. -/
namespace PkgInfo.Utf8

theorem codePoint (c : Char) :
    c.val.toNat < 0xD800 ∨ 0xDFFF < c.val.toNat ∧ c.val.toNat < 0x110000 := by
  simpa [UInt32.isValidChar, Nat.isValidChar] using c.valid

theorem ofCodePoint (c : Char) : Char.ofNat c.val.toNat = c := Char.ofNat_toNat c

theorem takeFirst {index : Nat} {b : UInt8} {p : Pending} (rest : Bytes)
    (starts : Pending.ofFirst? b.toNat = some p) (owes : p.owed ≠ 0) :
    decodeFrom index 0 none (b :: rest) = decodeFrom index 1 (some p) rest := by
  simp only [decodeFrom, starts, owes, if_false]

theorem takeNext {index taken : Nat} {b : UInt8} {p : Pending} (rest : Bytes)
    (within : p.low ≤ b.toNat ∧ b.toNat ≤ p.high) (owes : (p.take b.toNat).owed ≠ 0) :
    decodeFrom index taken (some p) (b :: rest) =
      decodeFrom index (taken + 1) (some (p.take b.toNat)) rest := by
  simp only [decodeFrom, within, and_self, if_true, owes, if_false]

theorem takeLast {index taken : Nat} {b : UInt8} {p : Pending} (rest : Bytes)
    (within : p.low ≤ b.toNat ∧ b.toNat ≤ p.high) (paid : (p.take b.toNat).owed = 0) :
    decodeFrom index taken (some p) (b :: rest) =
      (decodeFrom (index + taken + 1) 0 none rest).map (Char.ofNat (p.take b.toNat).bits :: ·) := by
  simp only [decodeFrom, within, and_self, if_true, paid]

theorem byteValue {n : Nat} (small : n < 256) : (UInt8.ofNat n).toNat = n := by
  simp [UInt8.toNat_ofNat', Nat.mod_eq_of_lt small]

theorem startsOne {n : Nat} (small : n ≤ 0x7F) :
    Pending.ofFirst? n = some ⟨0, 0x80, 0xBF, n⟩ := by
  have less : n < 0x80 := by omega
  simp [Pending.ofFirst?, less]

theorem startsTwo : ∀ n < 32, 2 ≤ n → Pending.ofFirst? (n + 0xC0) = some ⟨1, 0x80, 0xBF, n⟩ := by
  decide

theorem startsThree : ∀ n < 16, Pending.ofFirst? (n + 0xE0) =
    some ⟨2, if n = 0 then 0xA0 else 0x80, if n = 13 then 0x9F else 0xBF, n⟩ := by
  decide

theorem startsFour : ∀ n < 5, Pending.ofFirst? (n + 0xF0) =
    some ⟨3, if n = 0 then 0x90 else 0x80, if n = 4 then 0x8F else 0xBF, n⟩ := by
  decide

theorem readsOne {v : Nat} (small : v ≤ 0x7F) (index : Nat) (rest : Bytes) :
    decodeFrom index 0 none (UInt8.ofNat v :: rest) =
      (decodeFrom (index + 1) 0 none rest).map (Char.ofNat v :: ·) := by
  have first : (UInt8.ofNat v).toNat = v := byteValue (by omega)
  simp only [decodeFrom, first, startsOne small, if_true]

theorem readsTwo {v : Nat} (large : 0x7F < v) (small : v ≤ 0x7FF) (index : Nat) (rest : Bytes) :
    decodeFrom index 0 none
        (UInt8.ofNat (v / 64 % 32 + 0xC0) :: UInt8.ofNat (v % 64 + 0x80) :: rest) =
      (decodeFrom (index + 2) 0 none rest).map (Char.ofNat v :: ·) := by
  have first : (UInt8.ofNat (v / 64 % 32 + 0xC0)).toNat = v / 64 % 32 + 0xC0 := byteValue (by omega)
  have second : (UInt8.ofNat (v % 64 + 0x80)).toNat = v % 64 + 0x80 := byteValue (by omega)
  have starts := startsTwo (v / 64 % 32) (by omega) (by omega)
  have bits : v / 64 % 32 * 64 + v % 64 = v := by omega
  rw [takeFirst _ (by rw [first]; exact starts) (by simp),
    takeLast _ (by rw [second]; dsimp only; omega) rfl, second]
  simp only [Pending.take, Nat.add_sub_cancel, bits]

/- The narrower ranges of the second byte leave out overlong forms, surrogates and what lies past the
last code point, so a character never meets them. -/
theorem readsThree {v : Nat} (large : 0x7FF < v) (small : v ≤ 0xFFFF)
    (point : v < 0xD800 ∨ 0xDFFF < v) (index : Nat) (rest : Bytes) :
    decodeFrom index 0 none (UInt8.ofNat (v / 4096 % 16 + 0xE0) ::
        UInt8.ofNat (v / 64 % 64 + 0x80) :: UInt8.ofNat (v % 64 + 0x80) :: rest) =
      (decodeFrom (index + 3) 0 none rest).map (Char.ofNat v :: ·) := by
  have first : (UInt8.ofNat (v / 4096 % 16 + 0xE0)).toNat = v / 4096 % 16 + 0xE0 :=
    byteValue (by omega)
  have second : (UInt8.ofNat (v / 64 % 64 + 0x80)).toNat = v / 64 % 64 + 0x80 := byteValue (by omega)
  have third : (UInt8.ofNat (v % 64 + 0x80)).toNat = v % 64 + 0x80 := byteValue (by omega)
  have starts := startsThree (v / 4096 % 16) (by omega)
  have bits : (v / 4096 % 16 * 64 + v / 64 % 64) * 64 + v % 64 = v := by omega
  rw [takeFirst _ (by rw [first]; exact starts) (by simp),
    takeNext _ (by rw [second]; dsimp only; split <;> split <;> omega) (by simp [Pending.take]),
    takeLast _ (by rw [third]; dsimp only [Pending.take]; omega) rfl, second, third]
  simp only [Pending.take, Nat.add_sub_cancel, bits, Nat.add_assoc]

theorem readsFour {v : Nat} (large : 0xFFFF < v) (small : v < 0x110000) (index : Nat)
    (rest : Bytes) :
    decodeFrom index 0 none (UInt8.ofNat (v / 262144 % 8 + 0xF0) ::
        UInt8.ofNat (v / 4096 % 64 + 0x80) :: UInt8.ofNat (v / 64 % 64 + 0x80) ::
        UInt8.ofNat (v % 64 + 0x80) :: rest) =
      (decodeFrom (index + 4) 0 none rest).map (Char.ofNat v :: ·) := by
  have first : (UInt8.ofNat (v / 262144 % 8 + 0xF0)).toNat = v / 262144 % 8 + 0xF0 :=
    byteValue (by omega)
  have second : (UInt8.ofNat (v / 4096 % 64 + 0x80)).toNat = v / 4096 % 64 + 0x80 :=
    byteValue (by omega)
  have third : (UInt8.ofNat (v / 64 % 64 + 0x80)).toNat = v / 64 % 64 + 0x80 := byteValue (by omega)
  have fourth : (UInt8.ofNat (v % 64 + 0x80)).toNat = v % 64 + 0x80 := byteValue (by omega)
  have starts := startsFour (v / 262144 % 8) (by omega)
  have bits : ((v / 262144 % 8 * 64 + v / 4096 % 64) * 64 + v / 64 % 64) * 64 + v % 64 = v := by
    omega
  rw [takeFirst _ (by rw [first]; exact starts) (by simp),
    takeNext _ (by rw [second]; dsimp only; split <;> split <;> omega) (by simp [Pending.take]),
    takeNext _ (by rw [third]; dsimp only [Pending.take]; omega) (by simp [Pending.take]),
    takeLast _ (by rw [fourth]; dsimp only [Pending.take]; omega) rfl, second, third, fourth]
  simp only [Pending.take, Nat.add_sub_cancel, bits, Nat.add_assoc]

theorem decodeChar (index : Nat) (c : Char) (rest : Bytes) :
    decodeFrom index 0 none (String.utf8EncodeChar c ++ rest) =
      (decodeFrom (index + c.utf8Size) 0 none rest).map (c :: ·) := by
  have point := codePoint c
  have same := ofCodePoint c
  rw [← String.length_utf8EncodeChar]
  unfold String.utf8EncodeChar
  generalize c.val.toNat = v at point same
  subst same
  dsimp only
  split
  · exact readsOne (by assumption) index rest
  · split
    · exact readsTwo (by omega) (by assumption) index rest
    · split
      · exact readsThree (by omega) (by assumption) (by omega) index rest
      · exact readsFour (by omega) (by omega) index rest

theorem decodeFromEncode (index : Nat) (text : Text) :
    decodeFrom index 0 none (encode text) = .ok text := by
  induction text generalizing index with
  | nil => rfl
  | cons c rest ih =>
    have tail := ih (index + c.utf8Size)
    simp only [encode, List.flatMap_cons] at tail ⊢
    rw [decodeChar, tail]
    rfl

theorem decodeEncode (text : Text) : decode (encode text) = .ok text := decodeFromEncode 0 text

theorem feedInChar {c : Char} (other : c ≠ '\n') : (0x0A : UInt8) ∉ String.utf8EncodeChar c := by
  have point := codePoint c
  have apart : c.val.toNat ≠ 10 := fun same => other (by rw [← ofCodePoint c, same])
  have byte : ∀ n < 256, n ≠ 10 → (0x0A : UInt8) ≠ UInt8.ofNat n := by
    intro n small differs same
    have value := congrArg UInt8.toNat same
    rw [byteValue small] at value
    exact differs value.symm
  unfold String.utf8EncodeChar
  generalize c.val.toNat = v at point apart
  dsimp only
  split
  · simpa using byte v (by omega) apart
  · split
    · simp only [List.mem_cons, List.not_mem_nil, or_false, not_or]
      exact ⟨byte _ (by omega) (by omega), byte _ (by omega) (by omega)⟩
    · split
      · simp only [List.mem_cons, List.not_mem_nil, or_false, not_or]
        exact ⟨byte _ (by omega) (by omega), byte _ (by omega) (by omega),
          byte _ (by omega) (by omega)⟩
      · simp only [List.mem_cons, List.not_mem_nil, or_false, not_or]
        exact ⟨byte _ (by omega) (by omega), byte _ (by omega) (by omega),
          byte _ (by omega) (by omega), byte _ (by omega) (by omega)⟩

theorem feedInEncode {text : Text} (free : '\n' ∉ text) : (0x0A : UInt8) ∉ encode text := by
  simp only [encode, List.mem_flatMap, not_exists, not_and]
  exact fun c member => feedInChar fun same => free (same ▸ member)

theorem encodeFeed (text : Text) : encode (text ++ ['\n']) = encode text ++ [0x0A] := by
  rw [encodeAppend]
  rfl

end PkgInfo.Utf8
