import Mathlib.Data.Nat.Notation
import Mathlib.Data.Int.Notation

/-!
# Conventions

What the modules share:

* a `std::string` is a `String` with one character per byte, so that its size is
  its length; a theorem about all `String`s covers all byte strings;
* a clock reading is an integer number of nanoseconds, the tick of both
  `system_clock` and `steady_clock`, and a duration given in seconds is
  converted to that tick, as `std::chrono` does when the two are compared;
* an exception is told apart as far as the catch clauses of the source do.
-/

namespace IpServer

/-- A clock reading, in nanoseconds. -/
abbrev TimePoint := ℤ

/-- `std::chrono::seconds(n)`, in nanoseconds. -/
def seconds (n : ℤ) : ℤ := n * 1000000000

/-- An exception, by the catch clauses that tell exceptions apart. -/
inductive Exn
  /-- a `nlohmann::json::exception` -/
  | json (what : String)
  /-- a `std::invalid_argument` -/
  | invalidArgument (what : String)
  /-- any other `std::exception` -/
  | std (what : String)
  /-- an object that is not a `std::exception` -/
  | foreign
  deriving Repr, DecidableEq

/-- The text of an exception that `catch (const std::exception&)` catches. -/
def Exn.what? : Exn → Option String
  | .json what => some what
  | .invalidArgument what => some what
  | .std what => some what
  | .foreign => none

end IpServer
