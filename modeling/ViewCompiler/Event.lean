import ViewCompiler.Text

/-!
# Events worth a note

What caches, tokens and batches do in passing and report only to a reader who asked
for details. An event is a cause; its wording and the part of the program that it is
printed under are read off it.
-/

namespace ViewCompiler

/-- Something that happened while work was done. -/
inductive Event
  /-- A cache began with this many precompiled views. -/
  | seeded (count : Nat)
  /-- The entry of a key was found to be out of date. -/
  | expired (key : Text)
  /-- There is no template for a key. -/
  | absent (key : Text)
  /-- A template is being compiled; so many places are looked at for its imports. -/
  | compiling (key : Text) (candidates : Nat)
  /-- A build broke off and gave its claim back. -/
  | released (key : Text)
  /-- A source could not be read. -/
  | unreadable (report : Text)
  /-- A token found its file changed. -/
  | fileChanged (path : Text)
  /-- A path was signalled, and so many outstanding signals fired. -/
  | signalled (path : Text) (count : Nat)
  /-- The configuration file was looked for in vain. -/
  | unconfigured (file : Text)
  /-- A file came back after its removal was noted. -/
  | restored (path : Text)
  /-- A file went again after its creation was noted. -/
  | discarded (path : Text)
  /-- A change was noted. -/
  | noted (kind path : Text)
  /-- A change of a batch concerns a logical path. -/
  | affected (kind path : Text)
  /-- A directory is being watched. -/
  | watching (root : Text)
  /-- A check is complete. -/
  | tallied (compilations hits coalesced : Nat)
deriving DecidableEq, Repr

namespace Event

/-- The part of the program that an event is printed under. -/
def topic : Event → Text
  | .seeded _ | .expired _ | .absent _ | .compiling .. | .released _ | .tallied .. => "cache"
  | .unreadable _ => "compile"
  | .fileChanged _ | .signalled .. => "token"
  | .unconfigured _ => "config"
  | .restored _ | .discarded _ | .noted .. | .affected .. | .watching _ => "watch"

/-- The wording of an event. -/
def message : Event → Text
  | .seeded count => "seeded " ++ Text.decimal count ++ " precompiled view(s)"
  | .expired key => "expired: " ++ key
  | .absent key => "not found: " ++ key
  | .compiling key candidates =>
    "compiling " ++ key ++ " (" ++ Text.decimal candidates ++ " import candidate(s))"
  | .released key => "compilation of " ++ key ++ " panicked, releasing claim"
  | .unreadable report => report
  | .fileChanged path => "changed: " ++ path
  | .signalled path count => "signalled " ++ path ++ " (" ++ Text.decimal count ++ " token set(s))"
  | .unconfigured file => "no " ++ file ++ " found, using defaults"
  | .restored path => "restored: " ++ path
  | .discarded path => "discard created+removed: " ++ path
  | .noted kind path => "event " ++ kind ++ ": " ++ path
  | .affected kind path => kind ++ ": " ++ path
  | .watching root => "watching " ++ root
  | .tallied compilations hits coalesced =>
    Text.decimal compilations ++ " compiled, " ++ Text.decimal hits ++ " hits, " ++
      Text.decimal coalesced ++ " coalesced"

end Event

end ViewCompiler
