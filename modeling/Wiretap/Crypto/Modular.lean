/-!
# Modular arithmetic

Powers by repeated squaring, inverses by the extended Euclidean algorithm, and
the test of Miller and Rabin for primes.
-/

set_option autoImplicit false

namespace Wiretap.Crypto

def powFrom (m acc base e : Nat) : Nat :=
  if h : e = 0 then acc % m
  else powFrom m (if e % 2 = 1 then acc * base % m else acc) (base * base % m) (e / 2)
  termination_by e
  decreasing_by omega

def powMod (m base e : Nat) : Nat := powFrom m 1 (base % m) e

def euclid (a b : Nat) (x y : Int) : Nat × Int :=
  if _h : b = 0 then (a, x)
  else euclid b (a % b) y (x - (a / b : Nat) * y)
  termination_by b
  decreasing_by exact Nat.mod_lt _ (Nat.pos_of_ne_zero _h)

def inverse (m a : Nat) : Nat := ((euclid (a % m) m 1 0).2 % m).toNat

def twos (n : Nat) : Nat → Nat
  | 0 => 0
  | limit + 1 => if n % 2 = 0 then twos (n / 2) limit + 1 else 0

/-- Whether `x` or one of the `count` squares after it is -1. -/
def squaresToLast (n x : Nat) : Nat → Bool
  | 0 => x == n - 1
  | count + 1 => x == n - 1 || squaresToLast n (x * x % n) count

def passes (n base : Nat) : Bool :=
  let s := twos (n - 1) n.log2
  let x := powMod n base ((n - 1) >>> s)
  x == 1 || squaresToLast n x (s - 1)

def bases : List Nat := [2, 3, 5, 7, 11, 13, 17, 19, 23, 29, 31, 37]

/-- Whether a large odd number is a prime; a composite one drawn at random hardly passes. -/
def isProbablePrime (n : Nat) : Bool := bases.all (fun b => n % b != 0 && passes n b)

end Wiretap.Crypto
