import OrcaXShards.Shard.Lifecycle

/-!
# Invariants of the driver's objects over whole runs

`Lifecycle` describes each public call by the events it applies to the collections it is
given (`PublicCall.exec_evolves`).  Three facts about every run follow from it, one call at
a time.

* No call removes a collection or changes its data: the methods return new collections and
  only ever set a collection's two flags (`runCalls_keeps_data`).
* A pinned collection is persisted: `cache()` sets both flags, `uncache()` and `to_ray()`
  clear both, and `_uncache()` leaves a pinned collection alone
  (`runCalls_pinned_persisted`).
* Only `cache()` persists a collection again: no other call sets `rdd.is_cached` of an
  existing collection, so one that `__getitem__` built, or that was demoted or unpinned,
  stays unpersisted until `cache()` is called on it (`runCalls_only_cache_persists`).
-/

namespace OrcaXShards

/-- Every collection pinned with `cache()` is persisted. -/
def Heap.PinnedPersisted (h : Heap) : Prop :=
  ∀ o ∈ h.objs, o.userCached = true → o.isCached = true

namespace SparkXShards

@[simp] theorem afterOpt_rdd (o : SparkXShards) (ev : Option LifeEvent) : (o.afterOpt ev).rdd = o.rdd := by
  cases ev <;> simp [afterOpt]

/-- No event persists a pinned collection's RDD away from its pin. -/
theorem afterOpt_pinnedPersisted {o : SparkXShards} (ho : o.userCached = true → o.isCached = true)
    (ev : Option LifeEvent) : (o.afterOpt ev).userCached = true → (o.afterOpt ev).isCached = true := by
  cases hu : o.userCached <;> rcases ev with _ | _ | _ | _ <;> simp_all [afterOpt, after]

end SparkXShards

namespace PublicCall

variable (env : Env)

/-- One call keeps every existing collection's RDD and adds collections after them. -/
theorem exec_keeps_rdd (c : PublicCall) {h : Heap} {y : Nat} {o : SparkXShards}
    (ho : h.objs[y]? = some o) : ∃ o', (c.exec env h).2.objs[y]? = some o' ∧ o'.rdd = o.rdd :=
  ⟨_, (exec_evolves env c h).old y o ho, SparkXShards.afterOpt_rdd o _⟩

/-- One call keeps every pinned collection persisted. -/
theorem exec_pinnedPersisted (c : PublicCall) {h : Heap} (hinv : h.PinnedPersisted) :
    (c.exec env h).2.PinnedPersisted := by
  intro o' ho'
  obtain ⟨y, hy, rfl⟩ := List.getElem_of_mem ho'
  have he := exec_evolves env c h
  by_cases hyl : y < h.objs.length
  · have hold := he.old y _ (List.getElem?_eq_getElem hyl)
    rw [List.getElem?_eq_getElem hy, Option.some.injEq] at hold
    rw [hold]
    exact SparkXShards.afterOpt_pinnedPersisted (hinv _ (List.getElem_mem hyl)) _
  · intro hu
    have := (he.fresh y _ (by omega) (List.getElem?_eq_getElem hy)).1
    simp_all

/-- Only `cache()` of a collection persists it: any other call leaves an unpersisted
collection unpersisted. -/
theorem exec_unpersisted (c : PublicCall) {h : Heap} {y : Nat} {o : SparkXShards}
    (ho : h.objs[y]? = some o) (hc : o.isCached = false) (hcy : c ≠ .cache y) :
    ∃ o', (c.exec env h).2.objs[y]? = some o' ∧ o'.isCached = false := by
  refine ⟨_, (exec_evolves env c h).old y o ho, ?_⟩
  have hpin : c.effect env h y ≠ some .pin := by cases c <;> simp_all [effect]
  cases he : c.effect env h y with
  | none => exact hc
  | some ev => cases ev <;> simp_all [SparkXShards.afterOpt, SparkXShards.after]; split <;> simp_all

end PublicCall

/-! ## Whole runs -/

/-- Over any run of public calls, no collection is removed and none changes its data:
every collection keeps its RDD. -/
theorem runCalls_keeps_data (env : Env) :
    ∀ (cs : List PublicCall) (h : Heap) (y : Nat) (o : SparkXShards), h.objs[y]? = some o →
      ∃ o', (runCalls env cs h).objs[y]? = some o' ∧ o'.rdd = o.rdd
  | [], _, _, o, ho => ⟨o, ho, rfl⟩
  | c :: cs, _, y, _, ho => by
    obtain ⟨o₁, ho₁, hr₁⟩ := PublicCall.exec_keeps_rdd env c ho
    obtain ⟨o', ho', hr'⟩ := runCalls_keeps_data env cs _ y o₁ ho₁
    exact ⟨o', ho', hr'.trans hr₁⟩

theorem runCalls_keeps_data_on_pair :
    ∃ o', (runCalls (Env.simple true) [.repartition 0 4, .uncache 0, .split 0]
        ⟨[⟨Rdd.ofParts [[.int 1], [.int 2]], true, false⟩]⟩).objs[0]? = some o' ∧
      o'.rdd = Rdd.ofParts [[.int 1], [.int 2]] :=
  runCalls_keeps_data _ _ ⟨[⟨Rdd.ofParts [[.int 1], [.int 2]], true, false⟩]⟩ 0 _ rfl

/-- Over any run of public calls, every collection pinned with `cache()` stays persisted:
pinned-implies-persisted holds of every heap a run reaches from one where it holds. -/
theorem runCalls_pinned_persisted (env : Env) :
    ∀ (cs : List PublicCall) (h : Heap), h.PinnedPersisted → (runCalls env cs h).PinnedPersisted
  | [], _, hinv => hinv
  | c :: cs, _, hinv => runCalls_pinned_persisted env cs _ (PublicCall.exec_pinnedPersisted env c hinv)

theorem runCalls_pinned_persisted_from_empty :
    (runCalls (Env.simple false) [.loadPickle "data" none, .cache 0, .repartition 0 3, .uncache 0]
      ⟨[]⟩).PinnedPersisted :=
  runCalls_pinned_persisted _ _ _ fun _ ho => absurd ho (List.not_mem_nil _)

/-- Only `cache()` persists a collection again: over any run without `cache()` of it, a
collection that is not persisted, such as one `__getitem__` built, stays unpersisted. -/
theorem runCalls_only_cache_persists (env : Env) :
    ∀ (cs : List PublicCall) (h : Heap) (y : Nat) (o : SparkXShards), h.objs[y]? = some o →
      o.isCached = false → (∀ c ∈ cs, c ≠ .cache y) →
      ∃ o', (runCalls env cs h).objs[y]? = some o' ∧ o'.isCached = false
  | [], _, _, o, ho, hc, _ => ⟨o, ho, hc⟩
  | c :: cs, _, y, _, ho, hc, hcs => by
    obtain ⟨o₁, ho₁, hc₁⟩ := PublicCall.exec_unpersisted env c ho hc (hcs c (List.mem_cons_self _ _))
    exact runCalls_only_cache_persists env cs _ y o₁ ho₁ hc₁ fun c' hc' =>
      hcs c' (List.mem_cons_of_mem _ hc')

theorem runCalls_only_cache_persists_on_demoted :
    ∃ o', (runCalls (Env.simple true) [.transformShard (fun e => .ok e) 0, .uncache 0, .cache 1]
        ⟨[⟨Rdd.ofParts [[.int 1]], false, false⟩]⟩).objs[0]? = some o' ∧ o'.isCached = false :=
  runCalls_only_cache_persists _ _ ⟨[⟨Rdd.ofParts [[.int 1]], false, false⟩]⟩ 0 _ rfl rfl (by simp)

end OrcaXShards
