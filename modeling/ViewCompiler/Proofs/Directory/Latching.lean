import ViewCompiler.Proofs.Cache.Timely
import ViewCompiler.Proofs.Directory.Contained

/-!
# Tokens of a directory that were issued

A probe was issued if it stands in the list of probes, and a signal if it was minted or is
outstanding. What such tokens report depends neither on the tokens that are issued later nor
on who asks. Whatever happens to the disk and whatever is told takes back none of them.

A signal that has fired has fired for good. Of a probe this is not so before it is asked.
-/

namespace ViewCompiler

namespace Signals

variable {signals : Signals} {path : Text} {number : Nat}

/-- The signal was minted or is outstanding. -/
def Known (signals : Signals) (number : Nat) : Prop :=
  number < signals.minted ∨ ∃ path, (path, number) ∈ signals.outstanding

/-- Handing out one more signal makes none unknown. -/
theorem Known.token (known : signals.Known number) (path : Text) :
    (signals.token path).2.Known number := by
  cases known with
  | inl minted => exact .inl (Nat.lt_of_lt_of_le minted minted_token)
  | inr stands =>
    obtain ⟨other, member⟩ := stands
    exact .inr ⟨other, mem_token.mpr (.inl member)⟩

/-- A signal is known when it was handed out, and has not fired. -/
theorem known_token (signals : Signals) (path : Text) :
    (signals.token path).2.Known (signals.token path).1 ∧
      (signals.token path).2.fired (signals.token path).1 = false := by
  have member : (path, (signals.token path).1) ∈ (signals.token path).2.outstanding :=
    mem_token.mpr (.inr rfl)
  exact ⟨.inr ⟨path, member⟩, fired_eq_false_iff.mpr ⟨path, member⟩⟩

/-- Handing out signals fires none that is known. -/
theorem Known.fired_token (known : signals.Known number) (path : Text) :
    (signals.token path).2.fired number = signals.fired number := by
  have same : (signals.token path).2.fired number = false ↔ signals.fired number = false := by
    rw [fired_eq_false_iff, fired_eq_false_iff]
    constructor
    · rintro ⟨other, member⟩
      rcases mem_token.mp member with stands | fresh
      · exact ⟨other, stands⟩
      · obtain ⟨rfl, own⟩ := Prod.mk.inj fresh
        rcases @token_known signals other with stands | minted
        · exact ⟨other, own ▸ stands⟩
        · exact known.resolve_left (by omega)
    · rintro ⟨other, member⟩
      exact ⟨other, mem_token.mpr (.inl member)⟩
  cases now : signals.fired number with
  | false => exact same.mpr now
  | true =>
    rw [← Bool.not_eq_false] at now ⊢
    exact same.not.mpr now

/-- If nothing is minted anew and what is outstanding was outstanding before, no signal becomes
unknown, and one that has fired has fired for good. -/
theorem Sound.struck {after : Signals} (sound : signals.Sound)
    (minted : after.minted = signals.minted)
    (fewer : ∀ entry ∈ after.outstanding, entry ∈ signals.outstanding) :
    (signals.Known number → after.Known number) ∧
      (signals.fired number = true → after.fired number = true) := by
  constructor
  · rintro (below | ⟨path, member⟩)
    · exact .inl (minted ▸ below)
    · exact .inl (minted ▸ (sound path number member).minted)
  · intro fired
    by_contra unfired
    rw [Bool.not_eq_true, fired_eq_false_iff] at unfired
    obtain ⟨path, member⟩ := unfired
    have before := fired_eq_false_iff.mpr ⟨path, fewer _ member⟩
    rw [fired] at before
    cases before

end Signals

namespace Directory

open Logical

variable {directory : Directory}

/-- A probe that stands in the list, or a signal that is known. -/
def Issued (directory : Directory) : DirectoryToken → Prop
  | .never => True
  | .probe index => index < directory.probes.length
  | .signal number => ∃ signals, directory.signals = some signals ∧ signals.Known number

/-- What an issued token is, and what it reports, when another one was issued. -/
theorem Issued.issued {token : DirectoryToken} (known : directory.Issued token) (path : Text) :
    (directory.issue path).2.Issued token ∧
      (directory.issue path).2.changed token = directory.changed token := by
  obtain ⟨disk, root⟩ := directory.issue_disk path
  cases token with
  | never => exact ⟨trivial, rfl⟩
  | probe index =>
    have below : index < directory.probes.length := known
    obtain ⟨more, longer⟩ := directory.issue_probes path
    have node (physical : Text) :
        (directory.issue path).2.node? physical = directory.node? physical := by
      rw [node?, node?, disk]
    refine ⟨?_, ?_⟩
    · rw [Issued, longer, List.length_append]
      exact Nat.lt_of_lt_of_le below (Nat.le_add_right _ _)
    · simp only [changed, longer, List.getElem?_append_left below, node]
  | signal number =>
    obtain ⟨signals, stands, minted⟩ := known
    have signalled := directory.issue_signals path
    rw [stands] at signalled
    cases normal : normalize path with
    | none =>
      rw [normal] at signalled
      refine ⟨⟨signals, signalled, minted⟩, ?_⟩
      rw [changed_signal signalled, changed_signal stands]
    | some canonical =>
      rw [normal] at signalled
      refine ⟨⟨_, signalled, minted.token canonical⟩, ?_⟩
      rw [changed_signal signalled, changed_signal stands, minted.fired_token]

/-- A token was issued when it is new, and reports no change. -/
theorem issued_own (directory : Directory) (path : Text) :
    (directory.issue path).2.Issued (directory.issue path).1 ∧
      (directory.issue path).2.changed (directory.issue path).1 = false := by
  unfold issue
  cases normalize path with
  | none => exact ⟨trivial, rfl⟩
  | some canonical =>
    cases stands : directory.signals with
    | none =>
      constructor
      · simp [Issued]
      · simp only [changed, List.getElem?_concat_length]
        exact Probe.changed_capture _ _
    | some signals =>
      obtain ⟨known, unfired⟩ := signals.known_token canonical
      exact ⟨⟨_, rfl, known⟩, unfired⟩

/-- Asking a token takes back no other one. -/
theorem Issued.asked {token : DirectoryToken} (known : directory.Issued token)
    (other : DirectoryToken) : (directory.asked other).1.Issued token := by
  cases token with
  | never => trivial
  | probe index =>
    have below : index < directory.probes.length := known
    have stands := directory.asked_probes other index
    rw [List.getElem?_eq_getElem below, Option.map_some] at stands
    exact (List.getElem?_eq_some_iff.mp stands).1
  | signal number =>
    obtain ⟨signals, stands, minted⟩ := known
    exact ⟨signals, (directory.asked_disk other).2.2.trans stands, minted⟩

/-- What an item reads as depends on the disk only. -/
theorem octets_congr {one other : Directory} (disk : other.disk = one.disk) (item : Item) :
    other.octets item = one.octets item := by
  unfold octets
  rw [disk]

instance : Project.Discreet Directory where
  Issued := Issued
  own directory path := (directory.issued_own path).1
  issued path known := (Issued.issued known path).1
  asked other known := Issued.asked known other
  changed_own directory path := (directory.issued_own path).2
  changed_issued path known := (Issued.issued known path).2
  octets_asked directory token item := octets_congr (directory.asked_disk token).1 item
  octets_issued directory path item := octets_congr (directory.issue_disk path).1 item

/-- What can become of a directory besides what callers do: its disk changes, a change is told, or
everything is told to have changed. -/
inductive Alters (before : Directory) : Directory → Prop
  | disk (disk : Disk) : Alters before { before with disk }
  | tell (told : Text) : Alters before (before.tell told)
  | tellAll : Alters before before.tellAll

variable {before after : Directory} {root : Text}

/-- Altered like this, the directory is one that the project comes to. -/
theorem Alters.opened (alters : Alters before after) (opened : Opened root before) :
    Opened root after := by
  cases alters with
  | disk disk => exact opened.edit disk
  | tell told => exact opened.tell told
  | tellAll => exact opened.tellAll

/-- It leaves probes alone, and signals are not handed out but struck. -/
theorem Alters.struck (alters : Alters before after) : after.probes = before.probes ∧
    ∃ strike : Signals → Signals, after.signals = before.signals.map strike ∧
      ∀ signals, (strike signals).minted = signals.minted ∧
        ∀ entry ∈ (strike signals).outstanding, entry ∈ signals.outstanding := by
  cases alters with
  | disk disk => exact ⟨rfl, id, Option.map_id_apply.symm, fun _ => ⟨rfl, fun _ member => member⟩⟩
  | tell told =>
    exact ⟨rfl, _, rfl, fun signals => ⟨rfl, fun entry member => (Signals.mem_notify.mp member).1⟩⟩
  | tellAll => exact ⟨rfl, _, rfl, fun signals => ⟨rfl, nofun⟩⟩

/-- It takes back no token. -/
theorem Alters.honest (alters : Alters before after) (opened : Opened root before) :
    Project.Honest before after := by
  obtain ⟨probes, strike, signals, struck⟩ := alters.struck
  intro token known
  cases token with
  | never => trivial
  | probe index =>
    have below : index < before.probes.length := known
    rw [← probes] at below
    exact below
  | signal number =>
    obtain ⟨listening, stands, minted⟩ := known
    rw [stands, Option.map_some] at signals
    have sound := opened.sound.2 listening stands
    exact ⟨_, signals, (sound.struck (struck listening).1 (struck listening).2).1 minted⟩

/-- If there are no probes, it stops none. -/
theorem Alters.latching (alters : Alters before after) (opened : Opened root before)
    (unprobed : before.probes = []) : Project.Latching before after := by
  obtain ⟨-, strike, signals, struck⟩ := alters.struck
  intro token known reports
  cases token with
  | never => cases reports
  | probe index =>
    have below : index < before.probes.length := known
    rw [unprobed] at below
    exact absurd below (Nat.not_lt_zero index)
  | signal number =>
    obtain ⟨listening, stands, -⟩ := known
    rw [stands, Option.map_some] at signals
    have sound := opened.sound.2 listening stands
    have fired : before.changed (.signal number) = true := reports
    rw [changed_signal stands] at fired
    have still : after.changed (.signal number) = true := by
      rw [changed_signal signals]
      exact (sound.struck (struck listening).1 (struck listening).2).2 fired
    exact still

/-- Whatever callers do, the directory is one that the project comes to. -/
theorem Opened.touched (opened : Opened root before) (touches : Project.Touches before after) :
    Opened root after := by
  cases touches with
  | not => exact opened
  | asks token => exact opened.ask token
  | issues path => exact opened.issue path

/-- Changes are signalled and no file is looked at. -/
def Listening (directory : Directory) : Prop := directory.signals ≠ none ∧ directory.probes = []

/-- Whatever becomes of a directory, it goes on with signals if it has them, and no probe is added.
-/
theorem Alters.listening (alters : Alters before after) (listening : before.Listening) :
    after.Listening := by
  obtain ⟨probes, strike, signals, -⟩ := alters.struck
  refine ⟨?_, probes.trans listening.2⟩
  rw [signals]
  exact Option.map_eq_none_iff.not.mpr listening.1

/-- Callers who listen to signals add no probe. -/
theorem Listening.touched (listening : before.Listening) (touches : Project.Touches before after) :
    after.Listening := by
  obtain ⟨signalled, unprobed⟩ := listening
  cases touches with
  | not => exact ⟨signalled, unprobed⟩
  | asks token =>
    have first : (before.asked token).1.probes[0]? = none := by
      rw [asked_probes, unprobed]
      rfl
    refine ⟨fun none => signalled ((before.asked_disk token).2.2.symm.trans none), ?_⟩
    exact List.eq_nil_of_length_eq_zero (Nat.le_zero.mp (List.getElem?_eq_none_iff.mp first))
  | issues path =>
    obtain ⟨signals, stands⟩ := Option.ne_none_iff_exists'.mp signalled
    have issued : (before.issue path).2.signals ≠ none ∧ (before.issue path).2.probes = [] := by
      unfold issue
      rw [stands]
      split <;> simp [stands, unprobed]
    exact issued

end Directory

namespace Flight

variable {start flight : Flight Directory DirectoryToken}
  {past : List (Flight Directory DirectoryToken × Action Directory)}

/-- Over a directory, whatever becomes of it takes back no token. -/
theorem Course.directory_honest (course : Course start past flight) {root : Text}
    (opened : Directory.Opened root start.cache.project)
    (plain : ∀ moment change, (moment, .edit change) ∈ past →
      Directory.Alters moment.cache.project (change moment.cache.project)) : HonestAll past := by
  have touched (before after : Directory) (touches : Project.Touches before after)
      (opened : Directory.Opened root before) : Directory.Opened root after :=
    opened.touched touches
  refine (course.allowed Project.Honest opened touched ?_).2
  intro moment change member opened
  have alters := plain moment change member
  exact ⟨alters.opened opened, alters.honest opened⟩

/-- If changes are signalled, it stops none. -/
theorem Course.directory_latching (course : Course start past flight) {root : Text}
    (opened : Directory.Opened root start.cache.project)
    (listening : start.cache.project.Listening)
    (plain : ∀ moment change, (moment, .edit change) ∈ past →
      Directory.Alters moment.cache.project (change moment.cache.project)) : LatchingAll past := by
  let holds (directory : Directory) := Directory.Opened root directory ∧ directory.Listening
  have touched (before after : Directory) (touches : Project.Touches before after)
      (both : holds before) : holds after :=
    ⟨both.1.touched touches, both.2.touched touches⟩
  refine (course.allowed Project.Latching ⟨opened, listening⟩ touched ?_).2
  intro moment change member both
  have alters := plain moment change member
  exact ⟨⟨alters.opened both.1, alters.listening both.2⟩, alters.latching both.1 both.2.2⟩

end Flight

end ViewCompiler
