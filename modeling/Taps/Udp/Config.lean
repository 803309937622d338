import Taps.Udp.Demux

/-!
# The limits of a UDP Listener

`max_connections()`, `idle_timeout()` and `sweep_interval()` read the environment, or they are constants.
-/

namespace Taps

/-- `isspace()` in the C locale. -/
def isSpace (c : Char) : Bool := c = ' ' || 9 ≤ c.toNat && c.toNat ≤ 13

def ullongMax : Nat := 2 ^ 64 - 1

/-- Whether there is a minus sign, and the text behind the sign. -/
def takeSign : List Char → Bool × List Char
  | '-' :: s => (true, s)
  | '+' :: s => (false, s)
  | s => (false, s)

/-- `strtoull()` in base 10: a number that is too large is `ULLONG_MAX`, and a minus sign negates modulo
`2 ^ 64`. -/
def strtoull (s : List Char) : Nat :=
  let (negative, s) := takeSign (s.dropWhile isSpace)
  let n := Nat.ofDigitChars 10 (s.takeWhile Char.isDigit) 0
  if ullongMax < n then ullongMax else if negative then (2 ^ 64 - n) % 2 ^ 64 else n

/-- `env_or()`, where `getenv()` returns `value`. -/
def envOr (value : Option String) (default : Nat) : Nat :=
  match value with
  | none => default
  | some s =>
      let v := strtoull s.toList
      if v ≠ 0 then v else default

theorem envOr_pos (value : Option String) {default : Nat} (h : 0 < default) : 0 < envOr value default := by
  unfold envOr
  split
  · exact h
  · simp only
    split
    · rename_i hv
      exact Nat.pos_of_ne_zero hv
    · exact h

namespace DemuxConfig

def kMaxConnections : Nat := 1024

def kIdleTimeout : Nat := 30

/-- The limits where `getenv()` returns the values of `env`, and the size of the pool's blocks. -/
def ofEnv (env : String → Option String) (blockSize : Nat) : DemuxConfig where
  maxConnections := envOr (env "TAPS_UDP_MAX_CONNS") kMaxConnections
  idleTimeout := envOr (env "TAPS_UDP_IDLE_SECS") kIdleTimeout
  blockSize
  maxConnections_pos := envOr_pos _ (by decide)

end DemuxConfig

/-! ## What the results say of a text -/

/-- The text is a decimal number, perhaps with leading zeros, after white space and a sign, and perhaps before
something that is no digit. -/
structure Denotes (text : List Char) (negative : Bool) (n : Nat) : Prop where
  shape : ∃ spaces sign zeros rest, text = spaces ++ sign ++ List.replicate zeros '0' ++ Nat.toDigits 10 n ++ rest ∧
    (∀ c ∈ spaces, isSpace c = true) ∧ (if negative then sign = ['-'] else sign = [] ∨ sign = ['+']) ∧
    ∀ c, rest.head? = some c → c.isDigit = false

/-- The limit that the text sets, where `default` is the one without it: `0` sets none, and a negative number, like
one that is too large, a very large one. -/
def limit (negative : Bool) (n default : Nat) : Nat :=
  if n = 0 then default else if ullongMax < n then ullongMax else if negative then 2 ^ 64 - n else n

end Taps
