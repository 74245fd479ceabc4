import VirtualChime.Bytes

/-!
# Numbers in the shell

`[ n -gt m ]` reads digits as a decimal number, while `$(( ))` takes those after a leading zero for
an octal one, or fails on them.  The two agree on a number written without a leading zero.
-/

namespace VirtualChime

def isOctalDigit (c : Byte) : Bool := decide (48 ≤ c.toNat) && decide (c.toNat ≤ 55)

def octalValue (digits : Bytes) : ℕ := digits.foldl (fun n d => 8 * n + (d.toNat - 48)) 0

/-- What `$(( ))` makes of a text of digits; none where this is an error. -/
def arithmeticValue (digits : Bytes) : Option ℕ :=
  match digits with
  | 48 :: octal => if octal.all isOctalDigit then some (octalValue octal) else none
  | _ => some (digitsValue digits)

/-- Only zero is written with a zero in front. -/
theorem natDecimal_eq_zero_cons {n : ℕ} {rest : Bytes} (h : natDecimal n = 48 :: rest) :
    n = 0 ∧ rest = [] := by
  by_cases hn : n = 0
  · subst hn
    exact ⟨rfl, (List.cons.inj h).2.symm⟩
  · exfalso
    rw [natDecimal, if_neg hn] at h
    obtain ⟨d, ds, hdigits, hd, -⟩ := List.map_eq_cons_iff.mp h
    have hlast : (Nat.digits 10 n).getLast? = some d := by
      rw [← List.head?_reverse, hdigits]
      rfl
    have hlt : d < 10 := Nat.digits_lt_base (by omega) (List.mem_of_getLast? hlast)
    have hne : d ≠ 0 := by
      have hlead := Nat.getLast_digit_ne_zero 10 hn
      rw [List.getLast?_eq_some_getLast (Nat.digits_ne_nil_iff_ne_zero.mpr hn),
        Option.some.injEq] at hlast
      rwa [hlast] at hlead
    have hbyte := congrArg UInt8.toNat hd
    rw [UInt8.toNat_ofNat', Nat.mod_eq_of_lt (by omega)] at hbyte
    change 48 + d = 48 at hbyte
    omega

theorem natDecimal_injective : Function.Injective natDecimal :=
  Function.LeftInverse.injective digitsValue_natDecimal

theorem arithmeticValue_natDecimal (n : ℕ) : arithmeticValue (natDecimal n) = some n := by
  unfold arithmeticValue
  split
  · next octal h =>
    obtain ⟨rfl, rfl⟩ := natDecimal_eq_zero_cons h
    rfl
  · rw [digitsValue_natDecimal]

end VirtualChime
