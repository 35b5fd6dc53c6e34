import GlassHive.ServiceAssertions

/-!
# Base64 digits are read back
-/

namespace GlassHive

theorem base64Value_base64Digit {n : ℕ} (h : n < 64) : base64Value (base64Digit n) = n := by
  have hall : ∀ m < 64, base64Value (base64Digit m) = m := by decide
  exact hall n h

/-- The characters that `_b64url_decode` takes. -/
def isBase64 (c : Char) : Bool :=
  isAlphanumeric c || c = '_' || c = '-'

theorem isBase64_base64Digit {n : ℕ} (h : n < 64) : isBase64 (base64Digit n) = true := by
  have hall : ∀ m < 64, isBase64 (base64Digit m) = true := by decide
  exact hall n h

theorem ofNat_eq_of_mod {n : ℕ} {b : UInt8} (h : n % 256 = b.toNat) : UInt8.ofNat n = b := by
  apply UInt8.toNat_inj.mp
  simpa using h

/-- Bytes are read back from their digits. -/
theorem base64Decode_base64Encode (bytes : List UInt8) :
    base64Decode (base64Encode bytes) = some bytes := by
  fun_induction base64Encode bytes with
  | case1 a b c rest n ih =>
    have ha := a.toNat_lt
    have hb := b.toNat_lt
    have hc := c.toNat_lt
    have hn : n = a.toNat * 65536 + b.toNat * 256 + c.toNat := rfl
    clear_value n
    rw [base64Decode, ih, base64Value_base64Digit (by omega), base64Value_base64Digit (by omega),
      base64Value_base64Digit (by omega), base64Value_base64Digit (by omega)]
    have hvalue : n / 262144 * 262144 + n / 4096 % 64 * 4096 + n / 64 % 64 * 64 + n % 64 = n := by
      omega
    simp only [hvalue, Option.map_some]
    rw [ofNat_eq_of_mod (b := a) (by omega), ofNat_eq_of_mod (b := b) (by omega),
      ofNat_eq_of_mod (b := c) (by omega)]
  | case2 a b n =>
    have ha := a.toNat_lt
    have hb := b.toNat_lt
    have hn : n = a.toNat * 1024 + b.toNat * 4 := rfl
    clear_value n
    rw [base64Decode, base64Value_base64Digit (by omega), base64Value_base64Digit (by omega),
      base64Value_base64Digit (by omega)]
    have hvalue : (n / 4096 * 4096 + n / 64 % 64 * 64 + n % 64) / 4 = n / 4 := by
      omega
    simp only [hvalue]
    rw [ofNat_eq_of_mod (b := a) (by omega), ofNat_eq_of_mod (b := b) (by omega)]
  | case3 a n =>
    have ha := a.toNat_lt
    have hn : n = a.toNat * 16 := rfl
    clear_value n
    rw [base64Decode, base64Value_base64Digit (by omega), base64Value_base64Digit (by omega),
      ofNat_eq_of_mod (b := a) (by omega)]
  | case4 => rfl

theorem isBase64_of_mem_base64Encode {bytes : List UInt8} {c : Char}
    (h : c ∈ base64Encode bytes) : isBase64 c = true := by
  fun_induction base64Encode bytes with
  | case1 a b d rest n ih =>
    have ha := a.toNat_lt
    have hb := b.toNat_lt
    have hd := d.toNat_lt
    have hn : n = a.toNat * 65536 + b.toNat * 256 + d.toNat := rfl
    clear_value n
    simp only [List.mem_cons] at h
    rcases h with rfl | rfl | rfl | rfl | h
    · exact isBase64_base64Digit (by omega)
    · exact isBase64_base64Digit (by omega)
    · exact isBase64_base64Digit (by omega)
    · exact isBase64_base64Digit (by omega)
    · exact ih h
  | case2 a b n =>
    have ha := a.toNat_lt
    have hb := b.toNat_lt
    have hn : n = a.toNat * 1024 + b.toNat * 4 := rfl
    clear_value n
    simp only [List.mem_cons, List.not_mem_nil, or_false] at h
    rcases h with rfl | rfl | rfl
    · exact isBase64_base64Digit (by omega)
    · exact isBase64_base64Digit (by omega)
    · exact isBase64_base64Digit (by omega)
  | case3 a n =>
    have ha := a.toNat_lt
    have hn : n = a.toNat * 16 := rfl
    clear_value n
    simp only [List.mem_cons, List.not_mem_nil, or_false] at h
    rcases h with rfl | rfl
    · exact isBase64_base64Digit (by omega)
    · exact isBase64_base64Digit (by omega)
  | case4 => simp at h

/-- Three bytes take four digits. -/
theorem length_base64Encode_le (bytes : List UInt8) :
    3 * (base64Encode bytes).length ≤ 4 * bytes.length + 2 := by
  fun_induction base64Encode bytes with
  | case1 a b c rest n ih =>
    simp only [List.length_cons]
    omega
  | case2 a b n => simp
  | case3 a n => simp
  | case4 => simp

end GlassHive
