import ViewCompiler.Event
import ViewCompiler.Table

/-!
# Signals

Tokens that are told about a change instead of looking for it. All tokens issued for
a path share one outstanding signal until the path, or a directory above it, is
signalled; then the signal has fired and later tokens get a new one. So a signal has
fired exactly when it is no longer outstanding.
-/

namespace ViewCompiler

/-- The outstanding signals by path, and how many there ever were. -/
structure Signals where
  outstanding : Table Text Nat := []
  minted : Nat := 0
deriving Repr

namespace Signals

/-- The signal of a path, a new one if none is outstanding. -/
def token (signals : Signals) (path : Text) : Nat × Signals :=
  match signals.outstanding.find? path with
  | some signal => (signal, signals)
  | none =>
    (signals.minted,
      { outstanding := signals.outstanding ++ [(path, signals.minted)], minted := signals.minted + 1 })

/-- Whether a signal has fired. -/
def fired (signals : Signals) (signal : Nat) : Bool :=
  !(signals.outstanding.any fun (_, other) => other == signal)

/-- Whether signalling `changed` concerns `path`: it is the same path, or lies in the
directory of that name. -/
def concerns (changed path : Text) : Bool :=
  path == changed || Text.beginsWith ((changed.reverse.dropWhile (· == '/')).reverse ++ ['/']) path

/-- Fires every signal that a change concerns and tells how many there were. -/
def notify (signals : Signals) (changed : Text) : Nat × Signals :=
  let (struck, kept) := signals.outstanding.partition fun (path, _) => concerns changed path
  (struck.length, { signals with outstanding := kept })

/-- What there is to note about a change that fired signals. -/
def noteOf (changed : Text) (count : Nat) : List Event :=
  if count = 0 then [] else [.signalled changed count]

/-- Fires every outstanding signal. -/
def notifyAll (signals : Signals) : Signals := { signals with outstanding := [] }

/-- How many paths have an outstanding signal. -/
def count (signals : Signals) : Nat := signals.outstanding.length

end Signals

end ViewCompiler
