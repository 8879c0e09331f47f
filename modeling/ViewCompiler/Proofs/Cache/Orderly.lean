import ViewCompiler.Proofs.Cache.Turns

/-!
# Slots and builds are as the callers say

A slot is claimed under a handle exactly while some caller holds this claim, and a build is
running exactly while some caller has yet to end it, and no two callers have the same build
to end. This order is kept by whatever happens. With it, everything that can happen to a
flight is one of six turns, told in terms of what the callers have: `Turn` is all that the
other invariants need to know of the moves.
-/

namespace ViewCompiler

namespace Flight

variable {P Token : Type} {flight next : Flight P Token}

/-- Slots and builds are as the callers say. -/
structure Orderly (flight : Flight P Token) : Prop where
  pending : ∀ key handle, flight.cache.slot? key = some (.pending handle) ↔
    ∃ index, flight.Has Phase.claim? index key handle
  running : ∀ handle, flight.cache.progress? handle = some .running ↔
    ∃ index key, flight.Has Phase.build? index key handle
  alone : ∀ {index other key another handle}, flight.Has Phase.build? index key handle →
    flight.Has Phase.build? other another handle → index = other ∧ key = another

/-- What happens to a flight, as slots, builds and callers show it, and the mark it leaves. -/
inductive Turn (flight next : Flight P Token) : Option (Mark Token) → Prop
  /-- Slots and builds are left alone. A caller comes to wait only on the claim of its key,
  and only an entry of its key, made under its handle, is brought up. -/
  | quiet (slots : ∀ key, next.cache.slot? key = flight.cache.slot? key)
      (builds : ∀ handle, next.cache.progress? handle = flight.cache.progress? handle)
      (claim : Keeps Phase.claim? flight next) (build : Keeps Phase.build? flight next)
      (awaits : ∀ {index key handle}, next.Has Phase.awaits? index key handle →
        flight.Has Phase.awaits? index key handle ∨ flight.cache.slot? key = some (.pending handle))
      (brings : ∀ {index key handle entry}, next.Has Phase.brings? index key (handle, entry) →
        flight.Has Phase.brings? index key (handle, entry) ∨ (entry.id = handle ∧ entry.path = key))
      (hands : ∀ {index key value}, next.Has Phase.hands? index key value →
        flight.Has Phase.hands? index key value) : Turn flight next none
  | claims {index : Nat} {key : Text} {handle : Nat}
      (free : ∀ other, flight.cache.slot? key ≠ some (.pending other))
      (fresh : flight.cache.progress? handle = none)
      (slots : ∀ other, next.cache.slot? other =
        if other = key then some (.pending handle) else flight.cache.slot? other)
      (builds : ∀ other, next.cache.progress? other =
        if other = handle then some .running else flight.cache.progress? other)
      (claim : Gains Phase.claim? index key handle flight next)
      (build : Gains Phase.build? index key handle flight next)
      (awaits : Keeps Phase.awaits? flight next)
      (brings : Keeps Phase.brings? flight next) (hands : Keeps Phase.hands? flight next) :
      Turn flight next (some (.claimed index key handle))
  | installs {index : Nat} {key : Text} {handle : Nat} {entry : Entry Token}
      (holds : flight.Has Phase.claim? index key handle)
      (brought : flight.Has Phase.brings? index key (handle, entry))
      (slots : ∀ other, next.cache.slot? other =
        if other = key then some (.cached entry) else flight.cache.slot? other)
      (builds : ∀ other, next.cache.progress? other = flight.cache.progress? other)
      (claim : Loses Phase.claim? index flight next) (build : Keeps Phase.build? flight next)
      (awaits : Keeps Phase.awaits? flight next) (brings : Keeps Phase.brings? flight next)
      (hands : Gains Phase.hands? index key (handle, entry) flight next) :
      Turn flight next (some (.installed index key handle entry))
  | completes {index : Nat} {key : Text} {handle : Nat} {entry : Entry Token}
      (owes : flight.Has Phase.build? index key handle)
      (handed : flight.Has Phase.hands? index key (handle, entry))
      (brought : flight.Has Phase.brings? index key (handle, entry))
      (slots : ∀ other, next.cache.slot? other = flight.cache.slot? other)
      (builds : ∀ other, next.cache.progress? other =
        if other = handle then some (.done entry) else flight.cache.progress? other)
      (claim : Keeps Phase.claim? flight next) (build : Loses Phase.build? index flight next)
      (awaits : Keeps Phase.awaits? flight next) (brings : Loses Phase.brings? index flight next)
      (hands : Loses Phase.hands? index flight next) : Turn flight next none
  | releases {index : Nat} {key : Text} {handle : Nat}
      (holds : flight.Has Phase.claim? index key handle)
      (slots : ∀ other, next.cache.slot? other =
        if other = key then none else flight.cache.slot? other)
      (builds : ∀ other, next.cache.progress? other = flight.cache.progress? other)
      (claim : Loses Phase.claim? index flight next) (build : Keeps Phase.build? flight next)
      (awaits : Keeps Phase.awaits? flight next) (brings : Keeps Phase.brings? flight next)
      (hands : Keeps Phase.hands? flight next) :
      Turn flight next (some (.released index key handle))
  | abandons {index : Nat} {key : Text} {handle : Nat}
      (owes : flight.Has Phase.build? index key handle)
      (slots : ∀ other, next.cache.slot? other = flight.cache.slot? other)
      (builds : ∀ other, next.cache.progress? other =
        if other = handle then some .abandoned else flight.cache.progress? other)
      (claim : Keeps Phase.claim? flight next) (build : Loses Phase.build? index flight next)
      (awaits : Keeps Phase.awaits? flight next) (brings : Keeps Phase.brings? flight next)
      (hands : Keeps Phase.hands? flight next) : Turn flight next none

/-- Who holds a claim has a build to end. -/
theorem Has.build {index : Nat} {key : Text} {handle : Nat}
    (holds : flight.Has Phase.claim? index key handle) :
    flight.Has Phase.build? index key handle := by
  obtain ⟨caller, found, same, claim⟩ := holds
  exact ⟨caller, found, same, Phase.build?_of_claim? claim⟩

variable {index handle : Nat} {key : Text}

/-- A claim of a free key gives its slot and a new build to one caller. -/
theorem Orderly.claims (orderly : Orderly flight)
    (free : ∀ other, flight.cache.slot? key ≠ some (.pending other))
    (fresh : flight.cache.progress? handle = none)
    (slots : ∀ other, next.cache.slot? other =
      if other = key then some (.pending handle) else flight.cache.slot? other)
    (builds : ∀ other, next.cache.progress? other =
      if other = handle then some .running else flight.cache.progress? other)
    (claim : Gains Phase.claim? index key handle flight next)
    (build : Gains Phase.build? index key handle flight next) : Orderly next := by
  have unheld (other : Nat) (number : Nat) : ¬ flight.Has Phase.claim? other key number :=
    fun holds => free number ((orderly.pending key number).mpr ⟨other, holds⟩)
  have unbuilt (other : Nat) (another : Text) : ¬ flight.Has Phase.build? other another handle := by
    intro holds
    have running := (orderly.running handle).mpr ⟨other, another, holds⟩
    rw [fresh] at running
    cases running
  refine ⟨?_, ?_, ?_⟩
  · intro other number
    rw [slots]
    by_cases own : other = key
    · subst own
      rw [if_pos rfl]
      constructor
      · rintro ⟨⟩
        exact ⟨index, claim.mpr (.inr ⟨rfl, rfl, rfl⟩)⟩
      · rintro ⟨holder, holds⟩
        rcases claim.mp holds with held | ⟨-, -, rfl⟩
        · exact absurd held (unheld holder number)
        · rfl
    · rw [if_neg own, orderly.pending]
      apply exists_congr
      intro holder
      rw [claim]
      simp [own]
  · intro number
    rw [builds]
    by_cases own : number = handle
    · subst own
      rw [if_pos rfl]
      constructor
      · exact fun _ => ⟨index, key, build.mpr (.inr ⟨rfl, rfl, rfl⟩)⟩
      · exact fun _ => rfl
    · rw [if_neg own, orderly.running]
      refine exists_congr fun builder => exists_congr fun another => ?_
      rw [build]
      simp [own]
  · intro first second one another number has also
    rcases build.mp has with known | ⟨rfl, rfl, rfl⟩
    · rcases build.mp also with alike | ⟨rfl, rfl, rfl⟩
      · exact orderly.alone known alike
      · exact absurd known (unbuilt first one)
    · rcases build.mp also with alike | ⟨rfl, rfl, -⟩
      · exact absurd alike (unbuilt second another)
      · exact ⟨rfl, rfl⟩

/-- A claim that is given up leaves the slot of its key without one. -/
theorem Orderly.unclaims (orderly : Orderly flight)
    (holds : flight.Has Phase.claim? index key handle) {left : Option (Slot Token)}
    (unclaimed : ∀ number, left ≠ some (.pending number))
    (slots : ∀ other, next.cache.slot? other =
      if other = key then left else flight.cache.slot? other)
    (builds : ∀ other, next.cache.progress? other = flight.cache.progress? other)
    (claim : Loses Phase.claim? index flight next) (build : Keeps Phase.build? flight next) :
    Orderly next := by
  refine ⟨?_, ?_, ?_⟩
  · intro other number
    rw [slots]
    by_cases own : other = key
    · subst own
      rw [if_pos rfl]
      constructor
      · intro same
        exact absurd same (unclaimed number)
      · rintro ⟨holder, still⟩
        obtain ⟨held, differs⟩ := claim.mp still
        have same : number = handle := by
          have claimed := (orderly.pending other number).mpr ⟨holder, held⟩
          rw [(orderly.pending other handle).mpr ⟨index, holds⟩] at claimed
          cases claimed
          rfl
        subst same
        exact absurd (orderly.alone held.build holds.build).1 differs
    · rw [if_neg own, orderly.pending]
      apply exists_congr
      intro holder
      rw [claim]
      constructor
      · intro held
        refine ⟨held, ?_⟩
        rintro rfl
        exact own (held.unique holds).1
      · exact fun both => both.1
  · intro number
    rw [builds, orderly.running]
    exact exists_congr fun _ => exists_congr fun _ => build.symm
  · intro first second one another number has also
    exact orderly.alone (build.mp has) (build.mp also)

/-- A build that ends is no longer running and nobody's to end. -/
theorem Orderly.ends (orderly : Orderly flight) (owes : flight.Has Phase.build? index key handle)
    {result : Progress Token} (ended : result ≠ .running)
    (slots : ∀ other, next.cache.slot? other = flight.cache.slot? other)
    (builds : ∀ other, next.cache.progress? other =
      if other = handle then some result else flight.cache.progress? other)
    (claim : Keeps Phase.claim? flight next) (build : Loses Phase.build? index flight next) :
    Orderly next := by
  refine ⟨?_, ?_, ?_⟩
  · intro other number
    rw [slots, orderly.pending]
    exact exists_congr fun _ => claim.symm
  · intro number
    rw [builds]
    by_cases own : number = handle
    · subst own
      rw [if_pos rfl]
      constructor
      · intro same
        exact absurd (Option.some.inj same) ended
      · rintro ⟨builder, another, still⟩
        obtain ⟨held, differs⟩ := build.mp still
        exact absurd (orderly.alone held owes).1 differs
    · rw [if_neg own, orderly.running]
      refine exists_congr fun builder => exists_congr fun another => ?_
      rw [build]
      constructor
      · intro held
        refine ⟨held, ?_⟩
        rintro rfl
        exact own (held.unique owes).2
      · exact fun both => both.1
  · intro first second one another number has also
    exact orderly.alone (build.mp has).1 (build.mp also).1

/-- Every turn keeps the order. -/
theorem Orderly.turn {mark : Option (Mark Token)} (orderly : Orderly flight)
    (turn : Turn flight next mark) : Orderly next := by
  cases turn with
  | quiet slots builds claim build =>
    refine ⟨?_, ?_, ?_⟩
    · intro key handle
      rw [slots, orderly.pending]
      exact exists_congr fun _ => claim.symm
    · intro handle
      rw [builds, orderly.running]
      exact exists_congr fun _ => exists_congr fun _ => build.symm
    · intro first second one another number has also
      exact orderly.alone (build.mp has) (build.mp also)
  | claims free fresh slots builds claim build =>
    exact orderly.claims free fresh slots builds claim build
  | installs holds brought slots builds claim build =>
    exact orderly.unclaims holds (by simp) slots builds claim build
  | completes owes handed brought slots builds claim build =>
    exact orderly.ends owes (by simp) slots builds claim build
  | releases holds slots builds claim build =>
    exact orderly.unclaims holds (by simp) slots builds claim build
  | abandons owes slots builds claim build =>
    exact orderly.ends owes (by simp) slots builds claim build

section Lookups

variable {cache after : Cache P Token}

/-- Putting a slot changes that of its key and no other. -/
theorem slot?_put {slot : Slot Token} (slots : after.slots = cache.slots.put key slot)
    (other : Text) : after.slot? other = if other = key then some slot else cache.slot? other := by
  unfold Cache.slot?
  rw [slots]
  split
  · rename_i own
    rw [own, Table.find?_put_self]
  · rename_i differs
    rw [Table.find?_put_of_ne differs]

/-- Dropping a slot empties that of its key and no other. -/
theorem slot?_drop (slots : after.slots = cache.slots.drop key) (other : Text) :
    after.slot? other = if other = key then none else cache.slot? other := by
  unfold Cache.slot?
  rw [slots]
  split
  · rename_i own
    rw [own, Table.find?_drop_self]
  · rename_i differs
    rw [Table.find?_drop_of_ne differs]

/-- A build that begins gets the next handle and leaves the progress of earlier ones alone. -/
theorem progress?_append {begun : Progress Token}
    (handles : after.handles = cache.handles ++ [begun]) (other : Nat) :
    after.progress? other =
      if other = cache.handles.length then some begun else cache.progress? other := by
  unfold Cache.progress?
  rw [handles, List.getElem?_append]
  by_cases below : other < cache.handles.length
  · simp [below, Nat.ne_of_lt below]
  · by_cases last : other = cache.handles.length
    · simp [last]
    · have beyond : other - cache.handles.length ≠ 0 := by omega
      simp [below, last, beyond]

/-- A result that is set is that of its handle and no other. -/
theorem progress?_set {known result : Progress Token} (before : cache.progress? handle = some known)
    (handles : after.handles = cache.handles.set handle result) (other : Nat) :
    after.progress? other = if other = handle then some result else cache.progress? other := by
  unfold Cache.progress? at before ⊢
  rw [handles, List.getElem?_set]
  by_cases own : other = handle
  · subst own
    simp [(List.getElem?_eq_some_iff.mp before).1]
  · simp [own, Ne.symm own]

end Lookups

/-- Whatever happens to an orderly flight is a turn. -/
theorem Change.turn {mark : Option (Mark Token)} (orderly : Orderly flight)
    (change : Change flight next mark) : Turn flight next mark := by
  cases change with
  | call path kind =>
    exact .quiet (fun _ => rfl) (fun _ => rfl) (keeps_call _ rfl) (keeps_call _ rfl)
      (fun has => .inl ((keeps_call _ rfl).mp has)) (fun has => .inl ((keeps_call _ rfl).mp has))
      (keeps_call _ rfl).mp
  | edit change =>
    exact .quiet (fun _ => rfl) (fun _ => rfl) Iff.rfl Iff.rfl .inl .inl id
  | @move index caller phase cache found effect =>
    obtain ⟨key, kind, before⟩ := caller
    have own {α : Type} (what : Phase Token → Option α) (value : α)
        (known : what before = some value) : flight.Has what index key value :=
      ⟨_, found, rfl, known⟩
    dsimp only at effect ⊢
    cases effect with
    | quiet slots handles claim build awaits brings hands unmarked =>
      rw [unmarked]
      refine .quiet (fun key => ?_) (fun handle => ?_) (keeps_withPhase _ found claim)
        (keeps_withPhase _ found build) ?_ ?_ ?_
      · exact congrArg (Table.find? key) slots
      · exact congrArg (·[handle]?) handles
      · intro other another handle has
        rw [has_withPhase found] at has
        split at has
        · rename_i same
          obtain ⟨rfl, known⟩ := has
          exact (awaits handle known).imp_left fun waited => same ▸ own _ handle waited
        · exact .inl has
      · intro other another handle entry has
        rw [has_withPhase found] at has
        split at has
        · obtain ⟨rfl, known⟩ := has
          exact .inr (brings handle entry known)
        · exact .inl has
      · intro _ _ _ has
        exact ((loses_withPhase _ found hands).mp has).1
    | claims free slots handles =>
      have fresh : flight.cache.progress? flight.cache.handles.length = none :=
        List.getElem?_eq_none (Nat.le_refl _)
      exact .claims free fresh (slot?_put slots) (progress?_append handles)
        (gains_withPhase Phase.claim? found (by rfl) (by rfl))
        (gains_withPhase Phase.build? found (by rfl) (by rfl))
        (keeps_withPhase Phase.awaits? found (by rfl))
        (keeps_withPhase Phase.brings? found (by rfl))
        (keeps_withPhase Phase.hands? found (by rfl))
    | @installs handle entry =>
      exact .installs (own _ handle rfl) (own _ (handle, entry) rfl) (slot?_put rfl) (fun _ => rfl)
        (loses_withPhase Phase.claim? found (by rfl)) (keeps_withPhase Phase.build? found (by rfl))
        (keeps_withPhase Phase.awaits? found (by rfl))
        (keeps_withPhase Phase.brings? found (by rfl))
        (gains_withPhase Phase.hands? found (by rfl) (by rfl))
    | @completes handle entry =>
      have owes : flight.Has Phase.build? index key handle := own _ handle rfl
      have running := (orderly.running handle).mpr ⟨index, key, owes⟩
      exact .completes owes (own _ (handle, entry) rfl) (own _ (handle, entry) rfl) (fun _ => rfl)
        (progress?_set running rfl) (keeps_withPhase Phase.claim? found (by rfl))
        (loses_withPhase Phase.build? found (by rfl)) (keeps_withPhase Phase.awaits? found (by rfl))
        (loses_withPhase Phase.brings? found (by rfl)) (loses_withPhase Phase.hands? found (by rfl))
    | @releases handle =>
      have holds : flight.Has Phase.claim? index key handle := own _ handle rfl
      have dropped : (flight.cache.release key handle).slots = flight.cache.slots.drop key ∧
          (flight.cache.release key handle).handles = flight.cache.handles := by
        unfold Cache.release
        rw [(orderly.pending key handle).mpr ⟨index, holds⟩]
        simp
      exact .releases holds (slot?_drop dropped.1) (fun other => congrArg (·[other]?) dropped.2)
        (loses_withPhase Phase.claim? found (by rfl)) (keeps_withPhase Phase.build? found (by rfl))
        (keeps_withPhase Phase.awaits? found (by rfl))
        (keeps_withPhase Phase.brings? found (by rfl))
        (keeps_withPhase Phase.hands? found (by rfl))
    | @abandons handle =>
      have owes : flight.Has Phase.build? index key handle := own _ handle rfl
      have running := (orderly.running handle).mpr ⟨index, key, owes⟩
      exact .abandons owes (fun _ => rfl) (progress?_set running rfl)
        (keeps_withPhase Phase.claim? found (by rfl)) (loses_withPhase Phase.build? found (by rfl))
        (keeps_withPhase Phase.awaits? found (by rfl))
        (keeps_withPhase Phase.brings? found (by rfl))
        (keeps_withPhase Phase.hands? found (by rfl))

end Flight

end ViewCompiler
