/-!
# Scripted computations

A computation as a script describes it: it may take time, and then it returns a result or panics.
-/

set_option autoImplicit false

namespace CachedStreams.Bench

/-- How a scripted computation ends. -/
inductive GeneratorEnd (V E : Type) where
  | returns (result : Except E V)
  | panics

/-- A scripted computation. One without a delay ends where it starts. -/
structure Generator (V E : Type) where
  delay : Option Nat
  ending : GeneratorEnd V E

end CachedStreams.Bench
