import ViewCompiler.Proofs.Cache.Links

/-!
# Tokens that vouch for what was seen

A token vouches for what was seen of its path when it was issued: as long as it reports no
change, the same is seen now. An entry whose tokens vouch for what its outcome was made from
is therefore right as long as it is not out of date, whatever kind of project it is about and
however its tokens come to report a change. Calls return what is right and leave every entry
vouched for.

How a token vouches is a matter of the project: a fingerprint that is taken anew, or a signal
that someone has to give.
-/

namespace ViewCompiler

open TemplateUnit

variable {P Token : Type} [Project P Token]

/-- No token of an entry that is up to date reports a change. -/
theorem Entry.unchanged {project : P} {entry : Entry Token} {token : Token}
    (current : entry.isExpired project = false) (member : token ∈ entry.tokens) :
    Project.changed project token = false :=
  Bool.eq_false_iff.mpr (List.any_eq_false.mp current token member)

variable [Project.Sighted P]

/-- How tokens vouch: `minds` holds of a token, its path and what was seen of the path when the
token was issued; it stays so, and if the token reports no change, then the same is seen. -/
structure Project.Vouches (sound : P → Prop) (minds : P → Option Octets → Text → Token → Prop) :
    Prop where
  stays (origin : Text → Option Octets) :
    Stays sound fun project path token => minds project (origin path) path token
  own {project : P} (path : Text) (holds : sound project) :
    minds (Project.issue project path).2 (Sighted.seen project path) path
      (Project.issue project path).1
  quiet {project : P} {content : Option Octets} {path : Text} {token : Token}
    (holds : sound project) (vouched : minds project content path token)
    (unchanged : Project.changed project token = false) : Sighted.seen project path = content

/-- Asking and issuing tokens makes no difference to what is seen. -/
theorem Project.Asked.sight {before after : P} {events : List Event}
    (asked : Asked before events after) : ∀ path,
      Project.item after path = Project.item before path ∧
        Sighted.seen after path = Sighted.seen before path := by
  induction asked with
  | start => exact fun path => ⟨rfl, rfl⟩
  | ask earlier token inductionHypothesis =>
    intro path
    obtain ⟨item, seen⟩ := inductionHypothesis path
    exact ⟨(Sighted.item_asked _ token path).trans item,
      (Sighted.seen_asked _ token path).trans seen⟩

/-- Issuing tokens changes nothing that is seen of any path. -/
theorem Project.Issues.sight {before after : P} {paths : List Text} {tokens : List Token}
    (issues : Issues before paths tokens after) : ∀ path,
      Project.item after path = Project.item before path ∧
        Sighted.seen after path = Sighted.seen before path := by
  induction issues with
  | none project => exact fun path => ⟨rfl, rfl⟩
  | one other later inductionHypothesis =>
    intro path
    obtain ⟨item, seen⟩ := inductionHypothesis path
    exact ⟨item.trans (Sighted.item_issued _ other path),
      seen.trans (Sighted.seen_issued _ other path)⟩

/-- Tokens that were issued in one go vouch for what was seen then. -/
theorem Project.Issues.vouched {sound : P → Prop}
    {minds : P → Option Octets → Text → Token → Prop} (vouches : Vouches sound minds)
    {before after : P} {paths : List Text} {tokens : List Token}
    (issues : Issues before paths tokens after) (holds : sound before) :
    List.Forall₂ (fun path token => minds after (Sighted.seen before path) path token) paths
      tokens := by
  let origin : Text → Option Octets := Sighted.seen before
  have stays := vouches.stays origin
  -- What is seen does not change on the way, so each token vouches for what was seen at first.
  have ties : Ties (fun project => sound project ∧ ∀ path, Sighted.seen project path = origin path)
      fun project path token => minds project (origin path) path token := by
    refine ⟨⟨?_, ?_, ?_, ?_⟩, ?_⟩
    · intro project token known
      exact ⟨stays.sound_asked token known.1,
        fun path => (Sighted.seen_asked project token path).trans (known.2 path)⟩
    · intro project other known
      exact ⟨stays.sound_issued other known.1,
        fun path => (Sighted.seen_issued project other path).trans (known.2 path)⟩
    · intro project path token other known tied
      exact stays.asked other known.1 tied
    · intro project path token other known tied
      exact stays.issued other known.1 tied
    · intro project path known
      rw [← known.2 path]
      exact vouches.own path known.1
  exact issues.tied ties ⟨holds, fun _ => rfl⟩

/-- The outcome of an entry was right at its origin, and its tokens vouch for what was seen
there of everything that it depends on. -/
def Entry.VouchedFor (minds : P → Option Octets → Text → Token → Prop) (options : Options)
    (kind : ImportsKind) (project : P) (key : Text) (entry : Entry Token) : Prop :=
  ∃ origin : P, entry.outcome = Outcome.on options kind key origin ∧
    List.Forall₂ (fun path token => minds project (Project.Sighted.seen origin path) path token)
      (Cache.targets ((resolve options kind key).run origin)) entry.tokens

/-- An entry that is vouched for and not out of date is right. -/
theorem Entry.VouchedFor.right {sound : P → Prop}
    {minds : P → Option Octets → Text → Token → Prop} {options : Options} {kind : ImportsKind}
    {project : P} {key : Text} {entry : Entry Token}
    (vouched : entry.VouchedFor minds options kind project key)
    (vouches : Project.Vouches sound minds) (holds : sound project)
    (quiet : entry.isExpired project = false) (inKey : '\n' ∉ key)
    (inName : '\n' ∉ options.importName kind) :
    entry.outcome = Outcome.on options kind key project := by
  obtain ⟨origin, outcome, tokens⟩ := vouched
  rw [outcome]
  refine (Outcome.on_alike inKey inName ?_).symm
  intro path target
  obtain ⟨token, issued, known⟩ := exists_related tokens.flip target
  exact vouches.quiet holds known (entry.unchanged quiet issued)

namespace Cache

variable {sound : P → Prop} {minds : P → Option Octets → Text → Token → Prop} {options : Options}
  {kind : ImportsKind} {kindOf : Text → ImportsKind} {before after cache : Cache P Token}
  {key : Text} {reply : Reply Token} {entry : Entry Token}

/-- A cache whose entries are vouched for, each for the kind of imports of its key. No key is
being built. -/
structure VouchedFor (sound : P → Prop) (minds : P → Option Octets → Text → Token → Prop)
    (options : Options) (kindOf : Text → ImportsKind) (cache : Cache P Token) : Prop where
  sound : sound cache.project
  alone : ∀ key handle, cache.slot? key ≠ some (.pending handle)
  entries : ∀ key entry, cache.slot? key = some (.cached entry) →
    entry.VouchedFor minds options (kindOf key) cache.project key

/-- Another state of the project leaves every entry vouched for if it keeps how tokens vouch. -/
theorem VouchedFor.kept {settled : P → Prop} {further : P → Option Octets → Text → Token → Prop}
    (vouched : VouchedFor sound minds options kindOf before) (slots : after.slots = before.slots)
    (holds : settled after.project)
    (keeps : ∀ content path token, minds before.project content path token →
      further after.project content path token) :
    VouchedFor settled further options kindOf after := by
  have same (key : Text) : after.slot? key = before.slot? key := by rw [slot?, slot?, slots]
  refine ⟨holds, fun key handle => same key ▸ vouched.alone key handle, ?_⟩
  intro key entry stands
  obtain ⟨origin, outcome, tokens⟩ := vouched.entries key entry (same key ▸ stands)
  exact ⟨origin, outcome, tokens.imp fun path token known => keeps _ path token known⟩

/-- A cache that nobody has asked for anything has no entry. -/
theorem vouchedFor_empty {project : P} (holds : sound project) :
    VouchedFor sound minds options kindOf ({ project } : Cache P Token) :=
  ⟨holds, nofun, nofun⟩

/-- Whatever a call comes to, the entry that it returns is right, and every entry remains
vouched for. -/
theorem Goes.vouched (goes : Goes options (kindOf key) {} before key reply after)
    (vouches : Project.Vouches sound minds) (vouched : VouchedFor sound minds options kindOf before)
    (inKey : '\n' ∉ key) (inName : '\n' ∉ options.importName (kindOf key)) :
    (∃ entry compiled, reply = .entry entry compiled ∧
      entry.outcome = Outcome.on options (kindOf key) key before.project) ∧
      VouchedFor sound minds options kindOf after := by
  cases goes with
  | @hits entry events asked stands current asks =>
    constructor
    · exact ⟨entry, false, rfl, (vouched.entries key entry stands).right vouches vouched.sound
        current inKey inName⟩
    · have kept (origin : Text → Option Octets) := asks.keeps (vouches.stays origin) vouched.sound
      exact vouched.kept rfl (kept fun _ => none).1
        fun content path token known => (kept fun _ => content).2 path token known
  | @builds entry compiled events asked issued _ outdated asks issues project shape dependents
      ends =>
    have same : after.project = issued := by
      rw [project]
      split <;> rfl
    have kept (origin : Text → Option Octets) :=
      ((asks.keeps (vouches.stays origin)).trans (issues.keeps (vouches.stays origin)))
        vouched.sound
    have halfway := (asks.keeps (vouches.stays fun _ => none) vouched.sound).1
    have unit : (resolve options (kindOf key) key).run asked =
        (resolve options (kindOf key) key).run issued := by
      have items : Project.item issued = Project.item asked :=
        funext fun path => (issues.sight path).1
      rw [resolve_items, resolve_items, items]
    have outcome : entry.outcome = Outcome.on options (kindOf key) key asked := by
      rw [shape, same, unit]
      exact Outcome.on_alike inKey inName fun path _ => (issues.sight path).2
    constructor
    · refine ⟨entry, compiled, rfl, outcome.trans ?_⟩
      exact Outcome.on_alike inKey inName fun path _ => (asks.sight path).2
    · refine ⟨same ▸ (kept fun _ => none).1, ?_, ?_⟩
      · intro other handle stands
        rcases ends.stands stands with ⟨-, built⟩ | ⟨-, before⟩
        · cases built
        · exact vouched.alone other handle before
      · intro other known stands
        rw [same]
        rcases ends.stands stands with ⟨rfl, built⟩ | ⟨-, before⟩
        · cases built
          exact ⟨asked, outcome, issues.vouched vouches halfway⟩
        · obtain ⟨origin, right, tokens⟩ := vouched.entries other known before
          exact ⟨origin, right, tokens.imp fun path token known =>
            (kept fun _ => Project.Sighted.seen origin path).2 path token known⟩
  | breaksAtOnce _ breaks => cases breaks
  | breaksLate _ breaks => cases breaks

end Cache

end ViewCompiler
