import BcmServer.Util.Bytes

/-!
# BcmServer.Util.Thrown — C++ exceptions

A function that may throw returns an `Except Thrown`. The catch clauses of the
server name `std::exception`, so all that matters about what is thrown is
whether it is one of those: a thrown `std::string` passes every such clause.

Where nothing is caught, and undefined behaviour has to be told from a return, a
function returns an `Except Fault`.
-/

namespace BcmServer.Util

/-- Code that may fail succeeds step by step. -/
theorem bind_eq_ok {ε α β : Type} {x : Except ε α} {f : α → Except ε β} {b : β} :
    (x >>= f) = .ok b ↔ ∃ a, x = .ok a ∧ f a = .ok b := by
  cases x with
  | error e =>
      constructor
      · intro h
        cases h
      · rintro ⟨a, h, _⟩
        cases h
  | ok a =>
      constructor
      · intro h
        exact ⟨a, rfl, h⟩
      · rintro ⟨a', h, hf⟩
        cases h
        exact hf

/-- What a C++ function throws: something derived from `std::exception`, or a
value of another type. -/
inductive Thrown where
  | exception (what : Bytes)
  | other (value : Bytes)
deriving DecidableEq, Repr

namespace Thrown

variable {α β : Type}

/-- `catch (std::exception&)` -/
def catchStd (x : Except Thrown α) (handler : Bytes → Except Thrown α) : Except Thrown α :=
  match x with
  | .error (.exception what) => handler what
  | x => x

/-- The function returns. -/
def Returns (x : Except Thrown α) : Prop := ∃ a, x = .ok a

@[simp] theorem returns_ok (a : α) : Returns (.ok a : Except Thrown α) := ⟨a, rfl⟩

@[simp] theorem returns_pure (a : α) : Returns (pure a : Except Thrown α) := ⟨a, rfl⟩

@[simp] theorem not_returns_error (e : Thrown) : ¬ Returns (.error e : Except Thrown α) := by
  rintro ⟨a, h⟩
  cases h

/-- A sequence of calls returns if each of them does. -/
theorem returns_bind {x : Except Thrown α} {f : α → Except Thrown β} :
    Returns (x >>= f) ↔ ∃ a, x = .ok a ∧ Returns (f a) := by
  unfold Returns
  constructor
  · rintro ⟨b, h⟩
    obtain ⟨a, hx, hf⟩ := bind_eq_ok.mp h
    exact ⟨a, hx, b, hf⟩
  · rintro ⟨a, hx, b, hf⟩
    exact ⟨b, bind_eq_ok.mpr ⟨a, hx, hf⟩⟩

end Thrown

/-- Why a function does not return. -/
inductive Fault where
  /-- `std::stoull`, `std::stol` or `std::stoll` throws. -/
  | notANumber
  /-- undefined behaviour -/
  | undefined
deriving DecidableEq, Repr

/-- The value of a conversion that throws if there is none -/
def number {α : Type} (x : Option α) : Except Fault α := x.elim (.error .notANumber) .ok

@[simp] theorem number_eq_ok {α : Type} {x : Option α} {a : α} :
    number x = .ok a ↔ x = some a := by
  cases x <;> simp [number]

end BcmServer.Util
