import ViewCompiler.Proofs.Path.Downward
import ViewCompiler.Signals

/-!
# When signals fire

A signal is handed out for one path and is outstanding for no other one, however many signals
are handed out afterwards. So it fires exactly when a change is signalled that concerns its
path: handing out more signals fires none, and a signal that has fired stays so. Signalling a
directory concerns everything that the path of the directory leads to.
-/

namespace ViewCompiler

namespace Signals

/-- A signal was handed out for a path: if it is outstanding, then for this path. -/
structure Names (signals : Signals) (path : Text) (number : Nat) : Prop where
  minted : number < signals.minted
  own : ∀ other, (other, number) ∈ signals.outstanding → other = path

/-- Every outstanding signal was handed out for its path. -/
def Sound (signals : Signals) : Prop :=
  ∀ path number, (path, number) ∈ signals.outstanding → signals.Names path number

variable {signals : Signals} {path other changed : Text} {number : Nat}

/-- Before any call no signal is outstanding. -/
theorem sound_empty : Sound {} := nofun

/-- A signal that has not fired is outstanding. -/
theorem fired_eq_false_iff : signals.fired number = false ↔
    ∃ path, (path, number) ∈ signals.outstanding := by
  simp [fired, List.any_eq_true]

/-- What is outstanding when a signal was asked for. -/
theorem mem_token {pair : Text × Nat} : pair ∈ (signals.token path).2.outstanding ↔
    pair ∈ signals.outstanding ∨ pair = (path, (signals.token path).1) := by
  unfold token
  cases found : signals.outstanding.find? path with
  | none => simp
  | some known =>
    have member := Table.mem_of_find? found
    constructor
    · exact .inl
    · rintro (stands | rfl)
      · exact stands
      · exact member

/-- The number of signals that were handed out does not fall. -/
theorem minted_token : signals.minted ≤ (signals.token path).2.minted := by
  unfold token
  split
  · exact Nat.le_refl _
  · exact Nat.le_succ _

/-- A signal that is handed out is outstanding for its path or was never handed out before. -/
theorem token_known : (path, (signals.token path).1) ∈ signals.outstanding ∨
    ((signals.token path).1 = signals.minted ∧
      (signals.token path).2.minted = signals.minted + 1) := by
  unfold token
  cases found : signals.outstanding.find? path with
  | none => exact .inr ⟨rfl, rfl⟩
  | some known => exact .inl (Table.mem_of_find? found)

/-- A signal stands for its path after another one was handed out. -/
theorem Names.token (names : signals.Names path number) (other : Text) :
    (signals.token other).2.Names path number := by
  refine ⟨Nat.lt_of_lt_of_le names.minted minted_token, ?_⟩
  intro third member
  cases mem_token.mp member with
  | inl stands => exact names.own third stands
  | inr fresh =>
    obtain ⟨rfl, same⟩ := Prod.mk.inj fresh
    cases @token_known signals third with
    | inl known => exact names.own third (same ▸ known)
    | inr fresh =>
      have minted := names.minted
      omega

/-- Handing out a signal hands it out for the path that it was asked for. -/
theorem Sound.token_names (sound : signals.Sound) (path : Text) :
    (signals.token path).2.Names path (signals.token path).1 := by
  cases @token_known signals path with
  | inl known => exact (sound path _ known).token path
  | inr fresh =>
    refine ⟨by omega, ?_⟩
    intro other member
    cases mem_token.mp member with
    | inl stands =>
      have minted := (sound other _ stands).minted
      omega
    | inr same => exact (Prod.mk.inj same).1

/-- A signal that is handed out is outstanding for the path that it is handed out for. -/
theorem Sound.token (sound : signals.Sound) (path : Text) : (signals.token path).2.Sound := by
  intro other number member
  cases mem_token.mp member with
  | inl stands => exact (sound other number stands).token path
  | inr same =>
    obtain ⟨rfl, rfl⟩ := Prod.mk.inj same
    exact sound.token_names other

/-- Handing out signals fires none. -/
theorem fired_token (names : signals.Names path number) (other : Text) :
    (signals.token other).2.fired number = signals.fired number := by
  have same : ((signals.token other).2.fired number = false) ↔ (signals.fired number = false) := by
    rw [fired_eq_false_iff, fired_eq_false_iff]
    constructor
    · rintro ⟨third, member⟩
      cases mem_token.mp member with
      | inl stands => exact ⟨third, stands⟩
      | inr fresh =>
        obtain ⟨rfl, same⟩ := Prod.mk.inj fresh
        cases @token_known signals third with
        | inl known => exact ⟨third, same ▸ known⟩
        | inr fresh =>
          have minted := names.minted
          omega
    · rintro ⟨third, member⟩
      exact ⟨third, mem_token.mpr (.inl member)⟩
  rw [Bool.eq_iff_iff, ← Decidable.not_iff_not, Bool.not_eq_true, Bool.not_eq_true]
  exact same

/-- A change strikes the signals that it concerns and leaves all others outstanding. -/
theorem mem_notify {pair : Text × Nat} : pair ∈ (signals.notify changed).2.outstanding ↔
    pair ∈ signals.outstanding ∧ concerns changed pair.1 = false := by
  simp [notify, List.partition_eq_filter_filter]

/-- A signal stands for its path after a change was told. -/
theorem Names.notify (names : signals.Names path number) (changed : Text) :
    (signals.notify changed).2.Names path number :=
  ⟨names.minted, fun other member => names.own other (mem_notify.mp member).1⟩

/-- Signals that are left after a change are outstanding for their paths. -/
theorem Sound.notify (sound : signals.Sound) (changed : Text) : (signals.notify changed).2.Sound :=
  fun path number member => (sound path number (mem_notify.mp member).1).notify changed

/-- A signal has fired exactly if it had before or if the change concerns its path. -/
theorem fired_notify (names : signals.Names path number) (changed : Text) :
    (signals.notify changed).2.fired number = (signals.fired number || concerns changed path) := by
  have same : ((signals.notify changed).2.fired number = false) ↔
      (signals.fired number = false ∧ concerns changed path = false) := by
    rw [fired_eq_false_iff, fired_eq_false_iff]
    constructor
    · rintro ⟨other, member⟩
      obtain ⟨stands, spared⟩ := mem_notify.mp member
      obtain rfl := names.own other stands
      exact ⟨⟨other, stands⟩, spared⟩
    · rintro ⟨⟨other, stands⟩, spared⟩
      obtain rfl := names.own other stands
      exact ⟨other, mem_notify.mpr ⟨stands, spared⟩⟩
  rw [Bool.eq_iff_iff, ← Decidable.not_iff_not, Bool.not_eq_true, Bool.not_eq_true,
    Bool.or_eq_false_iff]
  exact same

end Signals

/-- A path that ends in a name does not end in a slash. -/
theorem Logical.trimmed_ofSegments {names : List Text} (nonempty : names ≠ [])
    (named : ∀ name ∈ names, Physical.IsName name) :
    ((ofSegments names).reverse.dropWhile (· == '/')).reverse = ofSegments names := by
  obtain ⟨front, last, rfl⟩ := (List.eq_nil_or_concat names).resolve_left nonempty
  obtain ⟨solid, -, -, whole⟩ := named last (by simp)
  obtain ⟨rest, char, rfl⟩ := (List.eq_nil_or_concat last).resolve_left solid
  have differs : ¬ (char == '/') = true := by
    intro slash
    apply whole
    rw [← beq_iff_eq.mp slash]
    simp
  have ends : ofSegments (front.concat (rest.concat char)) =
      front.flatMap ('/' :: ·) ++ '/' :: rest ++ [char] := by
    rw [← flatMap_slash nonempty]
    simp
  have kept (behind : Text) : (char :: behind).dropWhile (· == '/') = char :: behind :=
    List.dropWhile_cons_of_neg differs
  rw [ends, List.reverse_append, List.reverse_singleton, List.singleton_append, kept]
  simp

/-- Signalling a path concerns everything that it leads to. -/
theorem Logical.Leads.concerns {directory path : Text} (leads : Leads directory path) :
    Signals.concerns directory path = true := by
  obtain ⟨outer, inner, named, rfl, rfl⟩ := leads
  unfold Signals.concerns
  rw [Bool.or_eq_true]
  by_cases deeper : inner = []
  · left
    rw [deeper, List.append_nil, beq_self_eq_true]
  · right
    have further : outer ++ inner ≠ [] := fun empty => deeper (List.append_eq_nil_iff.mp empty).2
    have below : ofSegments (outer ++ inner) = outer.flatMap ('/' :: ·) ++ ofSegments inner := by
      rw [← flatMap_slash further, ← flatMap_slash deeper, List.flatMap_append]
    by_cases top : outer = []
    · subst top
      rfl
    · have own (name : Text) (member : name ∈ outer) : Physical.IsName name :=
        named name (List.mem_append_left inner member)
      have lead : ofSegments outer ++ ofSegments inner =
          (ofSegments outer ++ ['/']) ++ Text.joined ['/'] inner := by
        rw [List.append_assoc]
        rfl
      rw [trimmed_ofSegments top own, below, flatMap_slash top, lead, Text.beginsWith,
        Text.afterLead?_append]
      rfl

end ViewCompiler
