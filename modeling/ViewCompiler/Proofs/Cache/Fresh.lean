import ViewCompiler.Cache
import ViewCompiler.Proofs.Compilation.Watched

/-!
# What a cache should know

Without a cache, the outcome of a path is found by resolving and compiling it on the files
as they are. It depends on nothing but the paths that a build issues tokens for: where
these are unchanged, it is unchanged.
-/

namespace ViewCompiler

open TemplateUnit

/-- The outcome of a unit on the files of a project. -/
def Outcome.ofUnit (options : Options) (unit : TemplateUnit) (memory : Memory) : Outcome :=
  if unit.item.present then .compiled ((CompilationResult.ofUnit options unit).run memory)
  else .notFound

/-- The outcome of a path, resolved and compiled on the files of a project. -/
def Outcome.fresh (options : Options) (kind : ImportsKind) (path : Text) (memory : Memory) :
    Outcome :=
  .ofUnit options ((TemplateUnit.resolve options kind path).run memory) memory

variable {options : Options} {kind : ImportsKind} {path : Text} {unit : TemplateUnit}
  {earlier later : Memory}

/-- The outcome of a unit is the same where its targets are the same. -/
theorem Outcome.ofUnit_congr (options : Options) (sound : unit.item.present = true → unit.Sound)
    (agree : Memory.Agree (Cache.targets unit) earlier later) :
    ofUnit options unit later = ofUnit options unit earlier := by
  cases present : unit.item.present with
  | false => simp [ofUnit, present]
  | true =>
    have watched : Memory.Agree unit.watched earlier later := by
      simpa [Cache.targets, present] using agree
    have attempted := CompilationResult.attempt_within options (sound present)
    have within : (CompilationResult.ofUnit options unit).Within unit.watched fun _ => True :=
      Inquiry.within_andThen attempted fun _ _ => trivial
    simp only [ofUnit, present, Inquiry.run_congr watched within]

/-- A unit that is current stays so where its targets are the same, except for the imports
of a template that does not exist. -/
theorem TemplateUnit.current_congr (current : unit.Current earlier)
    (agree : Memory.Agree (Cache.targets unit) earlier later) :
    later.item unit.item.path = unit.item ∧ (unit.item.present = true → unit.Current later) := by
  cases present : unit.item.present with
  | false =>
    have own : Memory.Agree [unit.item.path] earlier later := by
      simpa [Cache.targets, present] using agree
    refine ⟨?_, by simp⟩
    rw [Inquiry.item_congr own List.mem_cons_self]
    exact current unit.item List.mem_cons_self
  | true =>
    have watched : Memory.Agree unit.watched earlier later := by
      simpa [Cache.targets, present] using agree
    have still : unit.Current later := by
      intro item member
      have listed : item.path ∈ unit.watched := by
        rcases List.mem_cons.mp member with rfl | inImports
        · exact List.mem_cons_self
        · exact List.mem_cons_of_mem _ (List.mem_map_of_mem inImports)
      rw [Inquiry.item_congr watched listed]
      exact current item member
    exact ⟨still unit.item List.mem_cons_self, fun _ => still⟩

/-- A resolved unit whose template does not exist, or that is current, has the outcome of
its path. -/
theorem TemplateUnit.ResolvedFor.fresh (resolved : unit.ResolvedFor options kind path)
    (template : later.item unit.item.path = unit.item)
    (current : unit.item.present = true → unit.Current later) :
    Outcome.fresh options kind path later = Outcome.ofUnit options unit later := by
  cases present : unit.item.present with
  | true => rw [Outcome.fresh, resolved.eq_resolve (current present)]
  | false =>
    have absent : later.item path = unit.item :=
      (Item.seen_again resolved.item later).symm.trans template
    simp only [Outcome.fresh, Outcome.ofUnit, resolve_run, absent, present,
      Bool.false_eq_true, if_false]

/-- The outcome of a path is the same where the targets of its unit are the same. -/
theorem Outcome.fresh_congr (inPath : '\n' ∉ path) (inName : '\n' ∉ options.importName kind)
    (agree : Memory.Agree (Cache.targets ((TemplateUnit.resolve options kind path).run earlier))
      earlier later) :
    fresh options kind path later = fresh options kind path earlier := by
  have resolved := resolve_resolved options kind path earlier
  obtain ⟨template, current⟩ := current_congr (resolve_current options kind path earlier) agree
  rw [resolved.fresh template current,
    ofUnit_congr options (fun present => resolved.sound present inPath inName) agree]
  rfl

/-- So are the targets. -/
theorem TemplateUnit.targets_congr (options : Options) (kind : ImportsKind) (path : Text)
    (agree : Memory.Agree (Cache.targets ((resolve options kind path).run earlier))
      earlier later) :
    Cache.targets ((resolve options kind path).run later) =
      Cache.targets ((resolve options kind path).run earlier) := by
  have resolved := resolve_resolved options kind path earlier
  obtain ⟨template, current⟩ := current_congr (resolve_current options kind path earlier) agree
  cases present : ((resolve options kind path).run earlier).item.present with
  | true => rw [resolved.eq_resolve (current present)]
  | false =>
    have same : later.item path = ((resolve options kind path).run earlier).item :=
      (Item.seen_again resolved.item later).symm.trans template
    rw [resolve_run] at same present
    have absent : (earlier.item path).present = false := present
    simp only [resolve_run, same, Cache.targets, absent, Bool.false_eq_true, ↓reduceIte]

end ViewCompiler
