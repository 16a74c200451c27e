import Mathlib.Tactic
import ReplDaemon.Frame.Codec

/-!
# Numbers in four bytes

Writing a number and reading it back are inverse to each other in both directions.
-/

namespace ReplDaemon.Frame

open Text

/-- The number in four bytes, by the weights of the bytes. -/
theorem toNat_ofWord (a b c d : UInt8) :
    (ofWord a b c d).toNat =
      a.toNat + b.toNat * 2 ^ 8 + c.toNat * 2 ^ 16 + d.toNat * 2 ^ 24 := by
  have ha := a.toNat_lt
  have hb := b.toNat_lt
  have hc := c.toNat_lt
  have hd := d.toNat_lt
  have shifted (x : UInt8) (k : Nat) (hk : k ≤ 24) :
      x.toNat <<< k % 2 ^ 32 = x.toNat <<< k := by
    apply Nat.mod_eq_of_lt
    rw [Nat.shiftLeft_eq]
    calc x.toNat * 2 ^ k < 2 ^ 8 * 2 ^ k :=
          Nat.mul_lt_mul_of_pos_right x.toNat_lt (Nat.two_pow_pos k)
      _ ≤ 2 ^ 8 * 2 ^ 24 := Nat.mul_le_mul_left _ (Nat.pow_le_pow_right (by decide) hk)
      _ = 2 ^ 32 := by decide
  have joined (low high k : Nat) (hlow : low < 2 ^ k) :
      low ||| high <<< k = low + high * 2 ^ k := by
    rw [Nat.or_comm, ← Nat.shiftLeft_add_eq_or_of_lt hlow, Nat.shiftLeft_eq, Nat.add_comm]
  simp only [ofWord, UInt32.toNat_or, UInt32.toNat_shiftLeft, UInt8.toNat_toUInt32]
  have h8 : (8 : UInt32).toNat % 32 = 8 := rfl
  have h16 : (16 : UInt32).toNat % 32 = 16 := rfl
  have h24 : (24 : UInt32).toNat % 32 = 24 := rfl
  rw [h8, h16, h24, shifted b 8 (by omega), shifted c 16 (by omega), shifted d 24 (by omega),
    joined _ _ 8 (by omega), joined _ _ 16 (by omega), joined _ _ 24 (by omega)]

@[simp]
theorem length_word (n : UInt32) : (word n).length = 4 := rfl

/-- The bytes of a number, by the remainders of its quotients. -/
theorem word_toNat (n : UInt32) :
    (word n).map UInt8.toNat =
      [n.toNat % 2 ^ 8, n.toNat / 2 ^ 8 % 2 ^ 8, n.toNat / 2 ^ 16 % 2 ^ 8,
        n.toNat / 2 ^ 24 % 2 ^ 8] := by
  simp [word, Nat.shiftRight_eq_div_pow]

/-- Every number is read from some four bytes, those it is written in. -/
theorem exists_word_eq (n : UInt32) :
    ∃ a b c d, word n = [a, b, c, d] ∧ ofWord a b c d = n := by
  refine ⟨_, _, _, _, rfl, ?_⟩
  apply UInt32.toNat_inj.mp
  have hn := n.toNat_lt
  have hbytes := word_toNat n
  simp only [word, List.map_cons, List.map_nil, List.cons.injEq, and_true] at hbytes
  obtain ⟨h₀, h₁, h₂, h₃⟩ := hbytes
  rw [toNat_ofWord, h₀, h₁, h₂, h₃]
  omega

theorem word_injective {m n : UInt32} (h : word m = word n) : m = n := by
  obtain ⟨a, b, c, d, hm, rfl⟩ := exists_word_eq m
  obtain ⟨a', b', c', d', hn, rfl⟩ := exists_word_eq n
  rw [hm, hn] at h
  cases h
  rfl

/-- Four bytes are the ones that their number is written in. -/
theorem word_ofWord (a b c d : UInt8) : word (ofWord a b c d) = [a, b, c, d] := by
  have ha := a.toNat_lt
  have hb := b.toNat_lt
  have hc := c.toNat_lt
  have hd := d.toNat_lt
  have hbytes := word_toNat (ofWord a b c d)
  rw [toNat_ofWord] at hbytes
  apply List.map_injective_iff.mpr (fun x y h => UInt8.toNat_inj.mp h)
  rw [hbytes]
  simp only [List.map_cons, List.map_nil, List.cons.injEq, and_true]
  refine ⟨?_, ?_, ?_, ?_⟩ <;> omega

/-- The length of bytes that are few enough is what its word says. -/
theorem toNat_ofNat_length {bytes : Bytes} (h : bytes.length < 2 ^ 32) :
    (UInt32.ofNat bytes.length).toNat = bytes.length :=
  Nat.mod_eq_of_lt h

end ReplDaemon.Frame
