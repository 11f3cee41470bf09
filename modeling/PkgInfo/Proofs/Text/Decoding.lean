import PkgInfo.Proofs.Text.Encoding

/-! What is read as UTF-8 is the encoding of the text it gives, and no other bytes are read. A fault in
them stays the same whichever ASCII byte comes behind them. -/
namespace PkgInfo.Utf8

theorem pointOf {v : Nat} (point : v < 0xD800 ∨ 0xDFFF < v ∧ v < 0x110000) :
    (Char.ofNat v).val.toNat = v := by
  have valid : v.isValidChar := point
  rw [Char.ofNat, dif_pos valid]
  rfl

theorem byteOf {n : Nat} {b : UInt8} (value : n = b.toNat) : UInt8.ofNat n = b := by
  rw [value, UInt8.ofNat_toNat]

theorem writesOne {a : UInt8} (small : a.toNat < 0x80) :
    String.utf8EncodeChar (Char.ofNat a.toNat) = [a] := by
  have one : a.toNat ≤ 0x7F := by omega
  simp only [String.utf8EncodeChar, pointOf (v := a.toNat) (by omega), one, if_true,
    UInt8.ofNat_toNat]

theorem writesTwo {a b : UInt8} {k x : Nat} (first : a.toNat = k + 0xC0) (least : 2 ≤ k)
    (most : k < 32) (second : b.toNat = x + 0x80) (six : x < 64) :
    String.utf8EncodeChar (Char.ofNat (k * 64 + x)) = [a, b] := by
  have value := pointOf (v := k * 64 + x) (by omega)
  have one : ¬ k * 64 + x ≤ 0x7F := by omega
  have two : k * 64 + x ≤ 0x7FF := by omega
  simp only [String.utf8EncodeChar, value, one, two, if_false, if_true]
  rw [byteOf (b := a) (by omega), byteOf (b := b) (by omega)]

theorem writesThree {a b c : UInt8} {k x y : Nat} (first : a.toNat = k + 0xE0) (most : k < 16)
    (second : b.toNat = x + 0x80) (six : x < 64) (long : k = 0 → 0x20 ≤ x) (point : k = 13 → x < 0x20)
    (third : c.toNat = y + 0x80) (twelve : y < 64) :
    String.utf8EncodeChar (Char.ofNat ((k * 64 + x) * 64 + y)) = [a, b, c] := by
  have value := pointOf (v := (k * 64 + x) * 64 + y) (by omega)
  have one : ¬ (k * 64 + x) * 64 + y ≤ 0x7F := by omega
  have two : ¬ (k * 64 + x) * 64 + y ≤ 0x7FF := by omega
  have three : (k * 64 + x) * 64 + y ≤ 0xFFFF := by omega
  simp only [String.utf8EncodeChar, value, one, two, three, if_false, if_true]
  rw [byteOf (b := a) (by omega), byteOf (b := b) (by omega), byteOf (b := c) (by omega)]

theorem writesFour {a b c d : UInt8} {k x y z : Nat} (first : a.toNat = k + 0xF0) (most : k < 5)
    (second : b.toNat = x + 0x80) (six : x < 64) (long : k = 0 → 0x10 ≤ x) (point : k = 4 → x < 0x10)
    (third : c.toNat = y + 0x80) (twelve : y < 64) (fourth : d.toNat = z + 0x80) (last : z < 64) :
    String.utf8EncodeChar (Char.ofNat (((k * 64 + x) * 64 + y) * 64 + z)) = [a, b, c, d] := by
  have value := pointOf (v := ((k * 64 + x) * 64 + y) * 64 + z) (by omega)
  have one : ¬ ((k * 64 + x) * 64 + y) * 64 + z ≤ 0x7F := by omega
  have two : ¬ ((k * 64 + x) * 64 + y) * 64 + z ≤ 0x7FF := by omega
  have three : ¬ ((k * 64 + x) * 64 + y) * 64 + z ≤ 0xFFFF := by omega
  simp only [String.utf8EncodeChar, value, one, two, three, if_false]
  rw [byteOf (b := a) (by omega), byteOf (b := b) (by omega), byteOf (b := c) (by omega),
    byteOf (b := d) (by omega)]

inductive First : Nat → Pending → Prop
  | one {n} (small : n < 0x80) : First n ⟨0, 0x80, 0xBF, n⟩
  | two {k} (least : 2 ≤ k) (most : k < 32) : First (k + 0xC0) ⟨1, 0x80, 0xBF, k⟩
  | three {k low high} (most : k < 16) (above : 0x80 ≤ low) (below : high ≤ 0xBF)
      (long : k = 0 → 0xA0 ≤ low) (point : k = 13 → high ≤ 0x9F) : First (k + 0xE0) ⟨2, low, high, k⟩
  | four {k low high} (most : k < 5) (above : 0x80 ≤ low) (below : high ≤ 0xBF)
      (long : k = 0 → 0x90 ≤ low) (point : k = 4 → high ≤ 0x8F) : First (k + 0xF0) ⟨3, low, high, k⟩

theorem first {n : Nat} {p : Pending} (starts : Pending.ofFirst? n = some p) : First n p := by
  have ranges : n < 0x80 ∨ (∃ k, n = k + 0xC0 ∧ 2 ≤ k ∧ k < 32) ∨ (∃ k, n = k + 0xE0 ∧ k < 16) ∨
      ∃ k, n = k + 0xF0 ∧ k < 5 := by
    simp only [Pending.ofFirst?] at starts
    split at starts
    · exact .inl ‹_›
    split at starts
    · contradiction
    split at starts
    · exact .inr (.inl ⟨n - 0xC0, by omega⟩)
    split at starts
    · exact .inr (.inr (.inl ⟨n - 0xE0, by omega⟩))
    split at starts
    · exact .inr (.inr (.inr ⟨n - 0xF0, by omega⟩))
    · contradiction
  rcases ranges with small | ⟨k, rfl, least, most⟩ | ⟨k, rfl, most⟩ | ⟨k, rfl, most⟩
  · rw [startsOne (by omega)] at starts
    exact Option.some.inj starts ▸ .one small
  · rw [startsTwo k most least] at starts
    exact Option.some.inj starts ▸ .two least most
  · rw [startsThree k most] at starts
    refine Option.some.inj starts ▸ .three most ?_ ?_ ?_ ?_
    all_goals split <;> omega
  · rw [startsFour k most] at starts
    refine Option.some.inj starts ▸ .four most ?_ ?_ ?_ ?_
    all_goals split <;> omega

theorem tookNext {index taken : Nat} {p : Pending} {bytes : Bytes} {text : Text}
    (read : decodeFrom index taken (some p) bytes = .ok text) (owes : 1 < p.owed) :
    ∃ b rest, bytes = b :: rest ∧ (p.low ≤ b.toNat ∧ b.toNat ≤ p.high) ∧
      decodeFrom index (taken + 1) (some (p.take b.toNat)) rest = .ok text := by
  cases bytes with
  | nil => cases read
  | cons b rest =>
    have more : (p.take b.toNat).owed ≠ 0 := by simp only [Pending.take]; omega
    simp only [decodeFrom, more, if_false] at read
    split at read
    · exact ⟨b, rest, rfl, ‹_›, read⟩
    · contradiction

theorem tookLast {index taken : Nat} {p : Pending} {bytes : Bytes} {text : Text}
    (read : decodeFrom index taken (some p) bytes = .ok text) (owes : p.owed = 1) :
    ∃ b rest tail next, bytes = b :: rest ∧ (p.low ≤ b.toNat ∧ b.toNat ≤ p.high) ∧
      text = Char.ofNat (p.take b.toNat).bits :: tail ∧ decodeFrom next 0 none rest = .ok tail := by
  cases bytes with
  | nil => cases read
  | cons b rest =>
    have paid : (p.take b.toNat).owed = 0 := by simp only [Pending.take]; omega
    simp only [decodeFrom, paid, if_true] at read
    split at read
    · obtain ⟨tail, done, rfl⟩ := mappedOk.1 read
      exact ⟨b, rest, tail, _, rfl, ‹_›, rfl, done⟩
    · contradiction

theorem readChar {index : Nat} {b : UInt8} {rest : Bytes} {text : Text}
    (read : decodeFrom index 0 none (b :: rest) = .ok text) :
    ∃ c tail more next, text = c :: tail ∧ b :: rest = String.utf8EncodeChar c ++ more ∧
      decodeFrom next 0 none more = .ok tail := by
  cases starts : Pending.ofFirst? b.toNat with
  | none => simp [decodeFrom, starts] at read
  | some p =>
    generalize value : b.toNat = n at starts
    cases first starts with
    | one small =>
      simp only [decodeFrom, value, starts, if_true] at read
      obtain ⟨tail, done, rfl⟩ := mappedOk.1 read
      subst value
      exact ⟨_, tail, rest, _, rfl, by rw [writesOne small, List.singleton_append], done⟩
    | @two k least most =>
      rw [takeFirst rest (by rw [value, starts]) (by simp)] at read
      obtain ⟨c, rest, tail, next, rfl, second, rfl, done⟩ := tookLast read rfl
      dsimp only at second
      have write := writesTwo (b := c) (x := c.toNat - 0x80) value least most (by omega) (by omega)
      exact ⟨_, tail, rest, next, rfl, by simp only [Pending.take, write]; rfl, done⟩
    | @three k low high most above below long point =>
      rw [takeFirst rest (by rw [value, starts]) (by simp)] at read
      obtain ⟨c, rest, rfl, second, read⟩ := tookNext read (by simp)
      obtain ⟨d, rest, tail, next, rfl, third, rfl, done⟩ := tookLast read rfl
      dsimp only [Pending.take] at second third
      have write := writesThree (b := c) (c := d) (x := c.toNat - 0x80) (y := d.toNat - 0x80) value
        most (by omega) (by omega) (by omega) (by omega) (by omega) (by omega)
      exact ⟨_, tail, rest, next, rfl, by simp only [Pending.take, write]; rfl, done⟩
    | @four k low high most above below long point =>
      rw [takeFirst rest (by rw [value, starts]) (by simp)] at read
      obtain ⟨c, rest, rfl, second, read⟩ := tookNext read (by simp)
      obtain ⟨d, rest, rfl, third, read⟩ := tookNext read (by simp [Pending.take])
      obtain ⟨e, rest, tail, next, rfl, fourth, rfl, done⟩ := tookLast read rfl
      dsimp only [Pending.take] at second third fourth
      have write := writesFour (b := c) (c := d) (d := e) (x := c.toNat - 0x80) (y := d.toNat - 0x80)
        (z := e.toNat - 0x80) value most (by omega) (by omega) (by omega) (by omega) (by omega)
        (by omega) (by omega) (by omega)
      exact ⟨_, tail, rest, next, rfl, by simp only [Pending.take, write]; rfl, done⟩

theorem encodedFrom {index : Nat} {bytes : Bytes} {text : Text}
    (read : decodeFrom index 0 none bytes = .ok text) : bytes = encode text := by
  induction text generalizing index bytes with
  | nil =>
    cases bytes with
    | nil => rfl
    | cons b rest =>
      obtain ⟨_, _, _, _, same, _⟩ := readChar read
      cases same
  | cons c rest ih =>
    cases bytes with
    | nil => cases read
    | cons b more =>
      obtain ⟨_, _, _, _, same, written, done⟩ := readChar read
      cases same
      rw [written, ih done]
      rfl

theorem decodedIff {bytes : Bytes} {text : Text} : decode bytes = .ok text ↔ bytes = encode text :=
  ⟨encodedFrom, fun same => same ▸ decodeEncode text⟩

example : decode [0x61, 0xC3, 0xA9, 0xF0, 0x9F, 0x98, 0x80] = .ok "aé😀".toList ∧
    decode [0x61, 0xED, 0xA0, 0x80] = .error (.invalid 1 1) := by decide +kernel

theorem encodeInjective {left right : Text} (same : encode left = encode right) : left = right := by
  have read := decodeEncode left
  rw [same, decodeEncode] at read
  exact (Except.ok.inj read).symm

def Open (pending : Option Pending) : Prop := ∀ p, pending = some p → 0x80 ≤ p.low

theorem noneOpen : Open none := fun _ same => nomatch same

theorem startsOpen {n : Nat} {p : Pending} (starts : Pending.ofFirst? n = some p) : Open (some p) := by
  rintro _ ⟨⟩
  cases first starts with
  | one small => exact Nat.le_refl _
  | two least most => exact Nat.le_refl _
  | three most above below long point => exact above
  | four most above below long point => exact above

theorem byteTaken (index taken : Nat) (pending : Option Pending) (b : UInt8) :
    (∃ fault, ∀ rest, decodeFrom index taken pending (b :: rest) = .error fault) ∨
      ∃ index' taken' pending' write, Open pending' ∧ ∀ rest,
        decodeFrom index taken pending (b :: rest) = (decodeFrom index' taken' pending' rest).map write := by
  cases pending with
  | none =>
    cases starts : Pending.ofFirst? b.toNat with
    | none => exact .inl ⟨.invalid 1 index, fun rest => by simp only [decodeFrom, starts]⟩
    | some p =>
      by_cases paid : p.owed = 0
      · exact .inr ⟨_, _, _, _, noneOpen, fun rest => by simp only [decodeFrom, starts, paid, if_true]; rfl⟩
      · refine .inr ⟨index, 1, some p, id, startsOpen starts, fun rest => ?_⟩
        simp only [decodeFrom, starts, paid, if_false, Except.map_id, id]
  | some p =>
    by_cases within : p.low ≤ b.toNat ∧ b.toNat ≤ p.high
    · by_cases paid : (p.take b.toNat).owed = 0
      · exact .inr ⟨_, _, _, _, noneOpen, fun rest => takeLast rest within paid⟩
      · have opened : Open (some (p.take b.toNat)) := by
          rintro _ ⟨⟩
          exact Nat.le_refl _
        refine .inr ⟨index, taken + 1, some (p.take b.toNat), id, opened, fun rest => ?_⟩
        rw [takeNext rest within paid, Except.map_id, id]
    · exact .inl ⟨.invalid taken index, fun rest => by simp only [decodeFrom, within, if_false]⟩

theorem faultSettled {index taken : Nat} {pending : Option Pending} {front : Bytes} {cause : Fault}
    (opened : Open pending) (fault : decodeFrom index taken pending front = .error cause) :
    ∃ settled, ∀ (b : UInt8) (rest : Bytes), b.toNat < 0x80 →
      decodeFrom index taken pending (front ++ b :: rest) = .error settled := by
  induction front generalizing index taken pending with
  | nil =>
    cases pending with
    | none => contradiction
    | some p =>
      have low := opened p rfl
      refine ⟨.invalid taken index, fun b rest ascii => ?_⟩
      have below : ¬ (p.low ≤ b.toNat ∧ b.toNat ≤ p.high) := by omega
      simp only [List.nil_append, decodeFrom, below, if_false]
  | cons c more ih =>
    rcases byteTaken index taken pending c with ⟨settled, same⟩ | ⟨_, _, _, write, opened, same⟩
    · exact ⟨settled, fun b rest _ => same (more ++ b :: rest)⟩
    · rw [same] at fault
      obtain ⟨settled, behind⟩ := ih opened (mappedError.1 fault)
      refine ⟨settled, fun b rest ascii => ?_⟩
      rw [List.cons_append, same, behind b rest ascii]
      rfl

end PkgInfo.Utf8
