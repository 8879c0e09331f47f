import ViewCompiler.Batch

/-!
# Differences of disks

Someone who looks at a file system again and again is told nothing of what happens in
between. What became of each place is read off the two disks: what is gone vanished, what
is new appeared, and what has other octets or another time was altered.
-/

namespace ViewCompiler.Disk

/-- What became of a place, if anything did. -/
def fate? (before after : Disk) (place : Place) : Option Happening :=
  match before.node? place, after.node? place with
  | none, none => none
  | none, some _ => some .appeared
  | some _, none => some .vanished
  | some known, some found => if known = found then none else some .altered

/-- The places at which something happened, what vanished first. -/
def differences (before after : Disk) : List (Happening × Place) :=
  let old := before.entries.map (·.1)
  let new := (after.entries.map (·.1)).filter fun place => (before.node? place).isNone
  (old ++ new).filterMap fun place => (before.fate? after place).map fun happening => (happening, place)

end ViewCompiler.Disk
