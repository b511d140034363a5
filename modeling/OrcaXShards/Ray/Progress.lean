import OrcaXShards.Ray.Handoff

/-!
# The `to_ray` job can always finish

`Handoff` shows what holds in every state the job reaches.  This module shows that the job
never gets stuck.  From any state, one attempt of a task that runs through without
interruption starts, asks `contains`, puts its partition if its node's store lacks the
id, and returns (`attempt_completes`).  One such attempt per task gives every partition a
kept result, so `collect()` and `to_ray` return (`toRay_can_finish`).

That not every run finishes is expected: Spark may start attempts that die, without end.
So the statement is that some continuation finishes, from every state.  Results Spark
has kept stay as they are along every run (`run_kept_stable`): only the first attempt of
a task to return counts.
-/

namespace OrcaXShards
namespace Plasma

variable {ι κ : Type} {ids : List ι} {P : Nat → κ}

/-! ## Runs -/

section Runs

variable [DecidableEq ι]

/-- Running two lists of actions is running their concatenation. -/
theorem run_append (w : World ι κ) (as bs : List Action) :
    run ids P w (as ++ bs) = (run ids P w as).bind (run ids P · bs) := by
  induction as generalizing w with
  | nil => rfl
  | cons a as ih =>
    simp only [List.cons_append, run]
    cases step ids P w a with
    | none => rfl
    | some w₁ => exact ih w₁

/-- A property every step keeps holds at the end of every run. -/
theorem run_preserves (Q : World ι κ → Prop)
    (hQ : ∀ {w w' : World ι κ} {act : Action}, step ids P w act = some w' → Q w → Q w') :
    ∀ {w w' : World ι κ} {acts : List Action}, run ids P w acts = some w' → Q w → Q w'
  | w, w', [], h, hw => by simp only [run, Option.some.injEq] at h; exact h ▸ hw
  | w, w', a :: rest, h, hw => by
    simp only [run] at h
    cases hs : step ids P w a with
    | none => simp [hs] at h
    | some w₁ =>
      simp only [hs, Option.bind_some] at h
      exact run_preserves Q hQ h (hQ hs hw)

/-- One step keeps every kept result. -/
theorem step_kept_mono {w w' : World ι κ} {act : Action} (h : step ids P w act = some w')
    {i : Nat} {r : ι × String} (hr : w.kept i = some r) : w'.kept i = some r := by
  rcases step_cases h with ⟨_, _, _, rfl⟩ | ⟨_, _, _, _, _, _, rfl⟩ | ⟨_, _, _, _, _, rfl⟩ |
    ⟨_, t, _, _, _, rfl⟩ | ⟨_, rfl⟩
  · exact hr
  · exact hr
  · exact hr
  · rw [World.drop_kept, World.keep_kept]
    split_ifs with hi
    · subst hi
      simp [hr]
    · exact hr
  · exact hr

/-- Along every run, a kept result stays as it is: the first attempt of a task to return
fixes its partition's result, whatever retries and speculative copies do after it. -/
theorem run_kept_stable {w w' : World ι κ} {acts : List Action} (h : run ids P w acts = some w')
    {i : Nat} {r : ι × String} (hr : w.kept i = some r) : w'.kept i = some r :=
  run_preserves (fun w => w.kept i = some r) (fun hs hw => step_kept_mono hs hw) h hr

end Runs

/-! ## One attempt completes its task -/

/-- A new attempt is the last one and targets its task's id. -/
theorem target_launch (w : World ι κ) {i : Nat} (hi : i < ids.length) (node : String) :
    (w.launch i node).target ids w.attempts.length = some (⟨i, node, .connected⟩, ids[i]) := by
  simp [World.target, List.getElem?_eq_getElem hi]

/-- An attempt moved to a new phase still targets its task's id. -/
theorem target_advance (w : World ι κ) {a : Nat} {t : Attempt} {id : ι}
    (ha : a < w.attempts.length) (p : Phase) (ht : ids[t.index]? = some id) :
    (w.advance a t p).target ids a = some ({ t with phase := p }, id) := by
  simp [World.target, ha, ht]

section Attempt

variable [DecidableEq ι]

section Step

variable {w : World ι κ} {a : Nat} {t : Attempt} {id : ι}

theorem step_launch {i : Nat} (hi : i < ids.length) (node : String) :
    step ids P w (.launch i node) = some (w.launch i node) := by
  simp [step, hi]

theorem step_contains (ht : w.target ids a = some (t, id)) (hp : t.phase = .connected) :
    step ids P w (.contains a) =
      some (w.advance a t (if (w.store t.node id).isSome then .stored else .absent)) := by
  simp [step, ht, hp]

theorem step_put_absent (ht : w.target ids a = some (t, id)) (hp : t.phase = .absent)
    (hs : w.store t.node id = none) :
    step ids P w (.put a) = some ((w.write t.node id (P t.index)).advance a t .stored) := by
  simp [step, ht, hp, hs]

theorem step_finish (ht : w.target ids a = some (t, id)) (hp : t.phase = .stored) :
    step ids P w (.finish a) = some ((w.keep t.index (id, t.node)).drop a) := by
  simp [step, ht, hp]

end Step

/-- One attempt of task `i` on `node`, run without interruption from any world: it starts,
asks `contains`, puts its partition if the store lacks it, and returns.  Partition `i` then
has a kept result, and every other partition keeps what it had. -/
theorem attempt_completes (w : World ι κ) {i : Nat} (hi : i < ids.length) (node : String) :
    ∃ acts w', run ids P w acts = some w' ∧ (w'.kept i).isSome ∧
      ∀ j, j ≠ i → w'.kept j = w.kept j := by
  have hid : ids[i]? = some ids[i] := List.getElem?_eq_getElem hi
  have hlen : w.attempts.length < (w.launch i node).attempts.length := by simp
  have hc : step ids P (w.launch i node) (.contains w.attempts.length) =
      some ((w.launch i node).advance _ ⟨i, node, .connected⟩
        (if (w.store node ids[i]).isSome then .stored else .absent)) :=
    step_contains (target_launch w hi node) rfl
  by_cases hs : (w.store node ids[i]).isSome
  · refine ⟨[.launch i node, .contains w.attempts.length, .finish w.attempts.length],
      ((((w.launch i node).advance w.attempts.length ⟨i, node, .connected⟩ .stored).keep i (ids[i], node)).drop
        w.attempts.length), ?_, by simp [World.keep_kept], fun j hj => by simp [World.keep_kept, hj]⟩
    simp only [run, step_launch hi, Option.some_bind, hc, if_pos hs,
      step_finish (target_advance (t := ⟨i, node, .connected⟩) _ hlen _ hid) rfl]
  · have hnone : ((w.launch i node).advance w.attempts.length ⟨i, node, .connected⟩ .absent).store
        node ids[i] = none := by simpa using hs
    have hp := step_put_absent (P := P) (target_advance (t := ⟨i, node, .connected⟩) _ hlen .absent hid) rfl hnone
    refine ⟨[.launch i node, .contains w.attempts.length, .put w.attempts.length,
      .finish w.attempts.length],
      (((((w.launch i node).advance w.attempts.length ⟨i, node, .connected⟩ .absent).write node
        ids[i] (P i)).advance w.attempts.length ⟨i, node, .absent⟩ .stored).keep i
          (ids[i], node)).drop w.attempts.length, ?_, by simp [World.keep_kept],
      fun j hj => by simp [World.keep_kept, hj]⟩
    have hlen' : w.attempts.length < (((w.launch i node).advance w.attempts.length
        ⟨i, node, .connected⟩ .absent).write node ids[i] (P i)).attempts.length := by simp
    simp only [run, step_launch hi, Option.some_bind, hc, if_neg hs, hp, Option.bind_some,
      step_finish (target_advance (t := ⟨i, node, .absent⟩) _ hlen' _ hid) rfl]

/-- Uninterrupted attempts of the tasks `l`, one after another: each of them then has a
kept result, and every result kept before stays. -/
theorem attempts_complete (node : String) : ∀ (l : List Nat) (w : World ι κ),
    (∀ i ∈ l, i < ids.length) →
    ∃ acts w', run ids P w acts = some w' ∧ (∀ i ∈ l, (w'.kept i).isSome) ∧
      ∀ i r, w.kept i = some r → w'.kept i = some r
  | [], w, _ => ⟨[], w, rfl, by simp, fun _ _ h => h⟩
  | i :: l, w, hl => by
    obtain ⟨acts₁, w₁, h₁, hi₁, -⟩ := attempt_completes (P := P) w (hl i (List.mem_cons_self _ _)) node
    obtain ⟨acts₂, w₂, h₂, hl₂, hk₂⟩ :=
      attempts_complete node l w₁ fun j hj => hl j (List.mem_cons_of_mem _ hj)
    refine ⟨acts₁ ++ acts₂, w₂, by rw [run_append, h₁, Option.some_bind, h₂], fun j hj => ?_,
      fun j r hr => hk₂ j r (run_kept_stable h₁ hr)⟩
    rcases List.mem_cons.mp hj with rfl | hj
    · obtain ⟨r, hr⟩ := Option.isSome_iff_exists.mp hi₁
      exact Option.isSome_iff_exists.mpr ⟨r, hk₂ _ _ hr⟩
    · exact hl₂ j hj

end Attempt

/-! ## The job finishes -/

/-- The job never gets stuck.  From any world, for `k` partitions that have pre-generated
ids, one uninterrupted attempt of each task on any node gives every partition a kept
result, so `to_ray` returns; results kept before stay as they were. -/
theorem toRay_can_finish [DecidableEq ι] (w : World ι κ) {k : Nat} (hk : k ≤ ids.length)
    (node address : String) :
    ∃ acts w', run ids P w acts = some w' ∧ (w'.toRay k address).isSome ∧
      ∀ i r, w.kept i = some r → w'.kept i = some r := by
  have hrange : ∀ i ∈ List.range k, i < ids.length := fun i hi => by
    have := List.mem_range.mp hi
    omega
  obtain ⟨acts, w', hrun, hall, hkept⟩ := attempts_complete (P := P) node (List.range k) w hrange
  refine ⟨acts, w', hrun, ?_, hkept⟩
  simpa [World.toRay] using collected_isSome fun i hi => hall i (List.mem_range.mpr hi)

theorem toRay_can_finish_from_empty_stores :
    1 ≤ [0].length ∧ ∃ acts w', run [0] (fun _ => 7) (World.init fun _ _ => none) acts = some w' ∧
      (w'.toRay 1 "10.0.0.1:6379").isSome ∧
      ∀ i r, (World.init (ι := Nat) (κ := Nat) fun _ _ => none).kept i = some r → w'.kept i = some r :=
  ⟨by decide, toRay_can_finish _ (by decide) "10.0.0.1" "10.0.0.1:6379"⟩

end Plasma
end OrcaXShards
