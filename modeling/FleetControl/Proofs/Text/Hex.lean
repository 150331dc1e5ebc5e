import FleetControl.Text

/-!
# Hexadecimal digits are read back

A byte is written as two digits, zeros in front included, so the digits of a
text are twice as many as its bytes and can be read in pairs.  Different texts
have different digits.
-/

namespace FleetControl
namespace Text

/-- The byte is a hexadecimal digit in small letters. -/
def isSmallHexDigit (b : UInt8) : Bool :=
  isDigit b || (0x61 ≤ b && b ≤ 0x66)

/-- The bytes that pairs of hexadecimal digits denote. -/
def unhex? : Text → Option Text
  | [] => some []
  | high :: low :: rest => do
    let h ← hexValue? high
    let l ← hexValue? low
    let bytes ← unhex? rest
    return UInt8.ofNat (16 * h + l) :: bytes
  | [_] => none

theorem hexDigit_spec {n : Nat} (hn : n < 16) :
    hexValue? (hexDigit n) = some n ∧ isSmallHexDigit (hexDigit n) = true := by
  have hall : ∀ m : Fin 16, hexValue? (hexDigit m) = some m.val ∧
      isSmallHexDigit (hexDigit m) = true := by decide
  exact hall ⟨n, hn⟩

theorem hexValue?_hexDigit {n : Nat} (hn : n < 16) :
    hexValue? (hexDigit n) = some n :=
  (hexDigit_spec hn).1

theorem isSmallHexDigit_of_mem_hex {t : Text} {b : UInt8} (hb : b ∈ t.hex) :
    isSmallHexDigit b = true := by
  obtain ⟨byte, -, hdigit⟩ := List.mem_flatMap.mp hb
  have hbyte := byte.toNat_lt
  rw [hexByte, List.mem_cons, List.mem_singleton] at hdigit
  rcases hdigit with rfl | rfl
  · exact (hexDigit_spec (by omega)).2
  · exact (hexDigit_spec (by omega)).2

/-- Each byte has two digits, also where the first of them is zero. -/
@[simp]
theorem length_hex (t : Text) : t.hex.length = 2 * t.length := by
  induction t with
  | nil => rfl
  | cons b rest ih =>
    rw [hex, List.flatMap_cons, List.length_append, ← hex, ih, List.length_cons]
    have htwo : (hexByte b).length = 2 := rfl
    omega

/-- The digits of a text are read as the text. -/
@[simp]
theorem unhex?_hex (t : Text) : unhex? t.hex = some t := by
  induction t with
  | nil => rfl
  | cons b rest ih =>
    have hb := b.toNat_lt
    have hhigh := hexValue?_hexDigit (n := b.toNat / 16) (by omega)
    have hlow := hexValue?_hexDigit (n := b.toNat % 16) (by omega)
    have hbyte : UInt8.ofNat (16 * (b.toNat / 16) + b.toNat % 16) = b := by
      rw [Nat.div_add_mod, UInt8.ofNat_toNat]
    have hcons : hex (b :: rest) =
        hexDigit (b.toNat / 16) :: hexDigit (b.toNat % 16) :: hex rest := rfl
    rw [hcons, unhex?, hhigh, hlow, ih]
    exact congrArg (fun byte => some (byte :: rest)) hbyte

theorem hex_injective : Function.Injective hex := by
  intro t u htu
  have hread : unhex? t.hex = unhex? u.hex := congrArg unhex? htu
  rw [unhex?_hex, unhex?_hex] at hread
  exact Option.some.inj hread

end Text
end FleetControl
