import ViewCompiler.Proofs.Disk.Telling

/-!
# What a probe answers

A probe is asked now and then while its file changes, is touched, goes and comes back. If
stamps and digests tell the contents of the file apart, the probe reports a change exactly if
the file was seen with another content than the one that the probe was taken of, now or at an
earlier call. What happens between two calls and is undone before the second is not seen.
-/

namespace ViewCompiler.Probe

/-- What happens while a file is probed: something else comes to stand at its path, or the probe
is asked. -/
inductive Moment
  | becomes (node : Option Node)
  | asked
deriving DecidableEq, Repr

/-- Everything that stands at the path of a file in the course of some moments. -/
def stood (node : Option Node) : List Moment → List (Option Node)
  | [] => [node]
  | .becomes other :: moments => node :: stood other moments
  | .asked :: moments => stood node moments

/-- What stands there whenever the probe is asked. -/
def looks (node : Option Node) : List Moment → List (Option Node)
  | [] => []
  | .becomes other :: moments => looks other moments
  | .asked :: moments => node :: looks node moments

/-- What the probe reports whenever it is asked. -/
def answers (probe : Probe) (node : Option Node) : List Moment → List Bool
  | [] => []
  | .becomes other :: moments => probe.answers other moments
  | .asked :: moments => probe.changed node :: (probe.asked node).answers node moments

variable {probe : Probe} {nodes : Option Node → Prop} {node : Option Node}
  {content : Option Octets} {moments : List Moment}

/-- What stands at the path at first is among what stands there in the course of the moments. -/
theorem mem_stood (node : Option Node) (moments : List Moment) : node ∈ stood node moments := by
  induction moments with
  | nil => exact List.mem_cons_self
  | cons moment moments inductionHypothesis =>
    cases moment with
    | becomes other => exact List.mem_cons_self
    | asked => exact inductionHypothesis

/-- Whether a probe was ever found to report a change is what it remembers. -/
theorem latched_asked (probe : Probe) (node : Option Node) :
    (probe.asked node).latched = probe.changed node := by
  unfold asked changed
  cases latched : probe.latched with
  | true => exact latched
  | false =>
    cases differs : probe.differs node with
    | true => rfl
    | false =>
      simp only [Bool.false_eq_true, ↓reduceIte, Bool.or_false]
      split
      · rfl
      · exact latched

/-- The digest of what a node is depends on its content. -/
theorem digestOf_congr {one other : Option Node} (same : contentOf one = contentOf other) :
    digestOf one = digestOf other := by
  have known (node : Option Node) :
      digestOf node = (contentOf node).elim Digest.empty Digest.ofOctets := by
    cases node with
    | none => rfl
    | some node => cases node <;> rfl
  rw [known one, known other, same]

/-- A probe that did not report a change reports none of the content that it recalls. -/
theorem Recalls.unchanged (recalls : probe.Recalls nodes content) (fresh : probe.latched = false)
    (same : contentOf node = content) : probe.changed node = false := by
  obtain ⟨taken, stamped, -, -, ⟨own, digest⟩, also, stamp⟩ :=
    recalls.resolve_left (by rw [fresh]; exact Bool.false_ne_true)
  have digested : digestOf node = probe.digest := by
    rw [digest, digestOf_congr (same.trans own.symm)]
  have alike : (stampOf node).isSome = (stampOf stamped).isSome := by
    rw [stampOf_isSome, stampOf_isSome, same, also]
  rw [changed, fresh, Bool.false_or, differs, stamp]
  cases old : stampOf stamped with
  | none =>
    rw [old] at alike
    rw [Option.not_isSome_iff_eq_none.mp (Bool.eq_false_iff.mp alike)]
  | some earlier =>
    rw [old] at alike
    obtain ⟨later, new⟩ := Option.isSome_iff_exists.mp alike
    simp [new, digested]

/-- A probe reports a change if it did so before, or if it now looks at another content than the
one that it recalls. -/
theorem Recalls.changed_eq (recalls : probe.Recalls nodes content) (apart : Apart nodes)
    (known : nodes node) : probe.changed node = (probe.latched || contentOf node != content) := by
  cases fresh : probe.latched with
  | true => rw [changed, fresh, Bool.true_or, Bool.true_or]
  | false =>
    rw [Bool.false_or, Bool.eq_iff_iff, bne_iff_ne]
    constructor
    · intro reports same
      rw [recalls.unchanged fresh same] at reports
      cases reports
    · intro differs
      by_contra quiet
      exact differs (recalls.quiet apart known (Bool.not_eq_true _ ▸ quiet))

/-- What a probe answers at the calls to come, by what it answered before and what it looks at. -/
theorem Recalls.answers (recalls : probe.Recalls nodes content) (apart : Apart nodes)
    (known : ∀ other ∈ stood node moments, nodes other) (call : Nat) :
    (probe.answers node moments)[call]? = (looks node moments)[call]?.map fun _ =>
      probe.latched || ((looks node moments).take (call + 1)).any (contentOf · != content) := by
  induction moments generalizing probe node call with
  | nil => rfl
  | cons moment moments inductionHypothesis =>
    cases moment with
    | becomes other =>
      exact inductionHypothesis recalls
        (fun later member => known later (List.mem_cons_of_mem _ member)) call
    | asked =>
      have here : nodes node := known node (mem_stood node moments)
      have reports := recalls.changed_eq apart here
      cases call with
      | zero => simp [Probe.answers, looks, reports]
      | succ call =>
        have further := inductionHypothesis (recalls.asked apart here) known call
        simpa [Probe.answers, looks, latched_asked, reports, Bool.or_assoc] using further

/-- A probe answers as often as it is asked. -/
theorem answers_length (probe : Probe) (node : Option Node) (moments : List Moment) :
    (probe.answers node moments).length = (looks node moments).length := by
  induction moments generalizing probe node with
  | nil => rfl
  | cons moment moments inductionHypothesis =>
    cases moment with
    | becomes other => exact inductionHypothesis probe other
    | asked => exact congrArg (· + 1) (inductionHypothesis (probe.asked node) node)

/-- A probe reports a change exactly if it looked at another content, now or earlier, than the one
that it was taken of. -/
theorem answers_iff {start found : Option Node} (path : Text)
    (apart : Apart (· ∈ stood start moments)) {call : Nat}
    (asked : (looks start moments)[call]? = some found) :
    ((capture path start).answers start moments)[call]? = some true ↔
      ∃ earlier ≤ call, ∃ look, (looks start moments)[earlier]? = some look ∧
        contentOf look ≠ contentOf start := by
  have fresh : (capture path start).latched = false := rfl
  have recalls : (capture path start).Recalls (· ∈ stood start moments) (contentOf start) :=
    recalls_capture path (mem_stood start moments)
  have known := recalls.answers apart (fun _ member => member) call
  rw [asked, Option.map_some, fresh, Bool.false_or] at known
  rw [known, Option.some_inj, List.any_eq_true]
  constructor
  · rintro ⟨look, member, differs⟩
    obtain ⟨earlier, before, stands⟩ := List.mem_take_iff_getElem.mp member
    have below : earlier < (looks start moments).length := by omega
    refine ⟨earlier, by omega, look, ?_, bne_iff_ne.mp differs⟩
    exact List.getElem?_eq_some_iff.mpr ⟨below, stands⟩
  · rintro ⟨earlier, before, look, stands, differs⟩
    obtain ⟨below, same⟩ := List.getElem?_eq_some_iff.mp stands
    have taken : earlier < min (call + 1) (looks start moments).length := by omega
    exact ⟨look, List.mem_take_iff_getElem.mpr ⟨earlier, taken, same⟩, bne_iff_ne.mpr differs⟩

/-- A probe answers every call. It reports a change exactly if at this call or at an earlier one
the file was there and had not been, or the other way round, or had another content than when the
probe was taken. So it never takes a report back, and a call that finds the content that the
probe was taken of is never the first to report a change, whatever the time of the file. -/
theorem answers_exact (path : Text) (start : Option Node) (moments : List Moment)
    (apart : Apart (· ∈ stood start moments)) :
    let calls := looks start moments
    let answers := (capture path start).answers start moments
    answers.length = calls.length ∧
      ∀ (call : Nat) (found : Option Node), calls[call]? = some found →
        (answers[call]? = some true ↔
          ∃ earlier ≤ call, ∃ look, calls[earlier]? = some look ∧
            contentOf look ≠ contentOf start) ∧
        (∀ earlier ≤ call, answers[earlier]? = some true → answers[call]? = some true) ∧
        (contentOf found = contentOf start → answers[call]? = some true →
          ∃ earlier < call, answers[earlier]? = some true) := by
  refine ⟨answers_length _ _ _, ?_⟩
  intro call found asked
  have below : call < (looks start moments).length := (List.getElem?_eq_some_iff.mp asked).1
  refine ⟨answers_iff path apart asked, ?_, ?_⟩
  · intro earlier before reports
    have there : (looks start moments)[earlier]? = some (looks start moments)[earlier] :=
      List.getElem?_eq_getElem (by omega)
    obtain ⟨first, atMost, look, stands, differs⟩ := (answers_iff path apart there).mp reports
    exact (answers_iff path apart asked).mpr ⟨first, by omega, look, stands, differs⟩
  · intro same reports
    obtain ⟨earlier, before, look, stands, differs⟩ := (answers_iff path apart asked).mp reports
    have notNow : earlier ≠ call := by
      rintro rfl
      obtain rfl := Option.some.inj (stands.symm.trans asked)
      exact differs same
    refine ⟨earlier, by omega, ?_⟩
    exact (answers_iff path apart stands).mpr ⟨earlier, Nat.le_refl _, look, stands, differs⟩

/-- A file that is touched does not change, it changes when it is rewritten, and the report stays
when the file is written back. -/
theorem answers_exact_restored :
    let before := some (Node.file [1] 0)
    let moments := [Moment.becomes (some (.file [1] 1)), .asked, .becomes (some (.file [2] 2)),
      .asked, .becomes none, .becomes (some (.file [1] 3)), .asked]
    Apart (· ∈ stood before moments) ∧
      (capture ['f'] before).answers before moments = [false, true, true] ∧
      ∃ earlier < 2, ((capture ['f'] before).answers before moments)[earlier]? = some true := by
  intro before moments
  have stamps : ∀ one ∈ stood before moments, ∀ other ∈ stood before moments,
      stampOf one = stampOf other → contentOf one = contentOf other := by
    decide +kernel
  have digests : ∀ one ∈ stood before moments, ∀ other ∈ stood before moments,
      (stampOf one).isSome → (stampOf other).isSome → digestOf one = digestOf other →
        contentOf one = contentOf other := by
    decide +kernel
  have apart : Apart (· ∈ stood before moments) :=
    ⟨fun one other first second => stamps one first other second,
      fun one other first second => digests one first other second⟩
  have answered : (capture ['f'] before).answers before moments = [false, true, true] := by
    decide +kernel
  have exact_ := (answers_exact ['f'] before moments apart).2 2 (some (.file [1] 3)) rfl
  exact ⟨apart, answered, exact_.2.2 rfl (by rw [answered]; rfl)⟩

end ViewCompiler.Probe
