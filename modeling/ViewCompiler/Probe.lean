import ViewCompiler.Digest
import ViewCompiler.Disk
import ViewCompiler.Event

/-!
# Probes of a file

A probe remembers the fingerprint of one file and compares it with the file as it is
when asked. Length and time of modification are looked at first. Only if they moved is
the content digested, and if the digest is the remembered one the new length and time
are remembered in its place. A probe that reported a change keeps reporting it.
-/

namespace ViewCompiler

/-- What is cheap to see of a regular file. -/
structure Stamp where
  length : Nat
  modified : Nat
deriving DecidableEq, Repr

/-- The fingerprint of a file at some time: no stamp if there was no regular file. -/
structure Probe where
  path : Text
  stamp : Option Stamp
  digest : Digest
  latched : Bool := false
deriving DecidableEq, Repr

namespace Probe

/-- The stamp of what a node is. -/
def stampOf : Option Node → Option Stamp
  | some (.file content modified) => some ⟨content.length, modified⟩
  | _ => none

/-- The digest of what a node is, the empty one if it is no regular file. -/
def digestOf : Option Node → Digest
  | some (.file content _) => Digest.ofOctets content
  | _ => Digest.empty

/-- A probe of a path at which `node` stands now. -/
def capture (path : Text) (node : Option Node) : Probe :=
  { path, stamp := stampOf node, digest := digestOf node }

/-- Whether the file differs from what is remembered. -/
def differs (probe : Probe) (node : Option Node) : Bool :=
  match probe.stamp, stampOf node with
  | none, none => false
  | some old, some new => old ≠ new && digestOf node ≠ probe.digest
  | _, _ => true

/-- Whether the probe reports a change, the file being `node` now. -/
def changed (probe : Probe) (node : Option Node) : Bool := probe.latched || probe.differs node

/-- The probe after it was asked while the file was `node`. -/
def asked (probe : Probe) (node : Option Node) : Probe :=
  if probe.latched then probe
  else if probe.differs node then { probe with latched := true }
  else match probe.stamp, stampOf node with
    | some _, some new => { probe with stamp := some new }
    | _, _ => probe

/-- A first report is worth a note. -/
def notes (probe : Probe) (node : Option Node) : List Event :=
  if !probe.latched && probe.differs node then [.fileChanged probe.path] else []

end Probe

end ViewCompiler
