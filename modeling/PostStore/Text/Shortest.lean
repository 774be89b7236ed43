import PostStore.Text.Numeral
/-!
# Shortest decimal text of a double

A positive finite double is `m · 2 ^ q`.  The reals that round to it form an interval; the text has
the fewest digits for which a decimal number lies in that interval, and of those numbers it is the
nearest to the double.
-/

namespace PostStore.Text.Shortest

/-! ## Digits -/

/-- The significand and binary exponent of a positive finite double, from its bits. -/
def decode (bits : Nat) : Nat × Int :=
  let fraction : Nat := bits % Nat.pow 2 52
  let exponent : Nat := bits / Nat.pow 2 52 % Nat.pow 2 11
  if exponent = 0 then (fraction, -1074) else (fraction + Nat.pow 2 52, (exponent : Int) - 1075)

/-- A positive rational number, as numerator and denominator. -/
structure Ratio where
  num : Nat
  den : Nat

/-- The rational `m · 2 ^ q`. -/
def Ratio.ofBinary (m : Nat) (q : Int) : Ratio :=
  if 0 ≤ q then ⟨m * Nat.pow 2 q.toNat, 1⟩ else ⟨m, Nat.pow 2 (-q).toNat⟩

/-- The rational `r · 10 ^ k`. -/
def Ratio.scale (r : Ratio) (k : Int) : Ratio :=
  if 0 ≤ k then ⟨r.num * Nat.pow 10 k.toNat, r.den⟩ else ⟨r.num, r.den * Nat.pow 10 (-k).toNat⟩

/-- Whether one rational is below another. -/
def Ratio.lt (a b : Ratio) : Bool := a.num * b.den < b.num * a.den

/-- Twice the distance of a whole number from a rational, times the denominator. -/
def Ratio.distance (r : Ratio) (n : Nat) : Nat := ((n * r.den : Int) - r.num).natAbs

/-- The number of decimal digits before the point of a rational, at most zero below one. -/
def magnitude (r : Ratio) : Int :=
  let guess : Int := ((Nat.log2 r.num : Int) - Nat.log2 r.den) * 30103 / 100000
  let fits (k : Int) : Bool := r.lt ((⟨1, 1⟩ : Ratio).scale k)
  if fits (guess - 1) then guess - 1 else if fits guess then guess
  else if fits (guess + 1) then guess + 1 else guess + 2

/-- The nearest of the decimal numbers with `count` digits that round to the double, as digits and
power of ten; nothing when there is none. -/
def candidate? (m : Nat) (q : Int) (count : Nat) : Option (Nat × Int) :=
  let value := Ratio.ofBinary (4 * m) (q - 2)
  let lowest := Ratio.ofBinary (4 * m - if m = Nat.pow 2 52 && q ≠ -1074 then 1 else 2) (q - 2)
  let highest := Ratio.ofBinary (4 * m + 2) (q - 2)
  let power := magnitude value - count
  let scaled := value.scale (-power)
  let low := lowest.scale (-power)
  let high := highest.scale (-power)
  let inside (n : Nat) : Bool :=
    let r : Ratio := ⟨n, 1⟩
    if m % 2 = 0 then !(r.lt low) && !(high.lt r) else low.lt r && r.lt high
  let below := scaled.num / scaled.den
  let above := below + 1
  match inside below && below ≠ 0, inside above with
  | true, true =>
    let nearer := scaled.distance below < scaled.distance above ||
      (scaled.distance below = scaled.distance above && below % 2 = 0)
    some (if nearer then below else above, power)
  | true, false => some (below, power)
  | false, true => some (above, power)
  | false, false => none

/-- The first count of digits, from `count` on, for which there is a candidate. -/
def search (m : Nat) (q : Int) (count : Nat) : (more : Nat) → Nat × Int
  | 0 => (0, 0)
  | more + 1 =>
    match candidate? m q count with
    | some found => found
    | none => search m q (count + 1) more

/-- Drops zeros at the end of the digits. -/
def stripZeros : (fuel : Nat) → Nat × Int → Nat × Int
  | 0, digits => digits
  | fuel + 1, (n, power) =>
    if n % 10 = 0 && n ≠ 0 then stripZeros fuel (n / 10, power + 1) else (n, power)

/-! ## Layout -/

/-- The text of a decimal number: positional when the exponent of its first digit is between -5 and
15, else with an exponent that has a sign. -/
def layout (n : Nat) (power : Int) : String :=
  let digits := (toString n).toList
  let exponent : Int := power + digits.length - 1
  if -5 ≤ exponent ∧ exponent ≤ 15 then
    if 0 ≤ power then String.ofList (digits ++ List.replicate power.toNat '0') ++ ".0"
    else if 0 ≤ exponent then
      let whole := exponent.toNat + 1
      String.ofList (digits.take whole ++ '.' :: digits.drop whole)
    else String.ofList ('0' :: '.' :: (List.replicate (-exponent - 1).toNat '0' ++ digits))
  else
    let fraction := if digits.length = 1 then [] else '.' :: digits.drop 1
    String.ofList (digits.take 1 ++ fraction ++
      'e' :: (if exponent < 0 then '-' else '+') :: (toString exponent.natAbs).toList)

/-- The shortest text that reads back as a finite double, given its bits. -/
def text (bits : Nat) : String :=
  let size := bits % Nat.pow 2 63
  let (m, q) := decode size
  let (n, power) := stripZeros 17 (search m q 1 17)
  let unsigned := if size = 0 then "0.0" else layout n power
  if Nat.pow 2 63 ≤ bits then "-" ++ unsigned else unsigned

end PostStore.Text.Shortest
