import OrcaXShards.Shard.Methods

/-!
# Collections derived element by element line up

`transform_shard(f)`, `x[key]` and the components of `split()` map one function over the
elements of a collection inside each partition, so they keep its partition count and the
number of elements in every partition.  Two collections of one layout zip position by
position, so `split()` followed by `zip` gives back the element-wise pairs.

`zip` relies on the constructor of the zipped collection to find partitions that do not
pair up.  In eager mode the constructor computes the collection inside the `try` block of
`zip`, which turns the failure into a `ValueError`.  In lazy mode nothing is computed
there: `zip` returns, demotes both sources, and the collection it returns fails when it
is first computed.
-/

namespace OrcaXShards
namespace SparkXShards

/-! ## Element-wise maps keep the layout -/

/-- A subscription that succeeds passes the check of `__getitem__`. -/
theorem getData_of_getItem {key e v : PyObj} (hv : e.getItem key = .ok v) :
    getData key e = .ok v := by
  unfold getData
  split
  · rw [hv]
  · rename_i hne
    cases e <;> first | exact absurd rfl hne | cases hv

/-- Partitions related element by element have one layout. -/
theorem layout_of_forall₂ {R : PyObj → PyObj → Prop} {ps qs : List (List PyObj)}
    (h : List.Forall₂ (List.Forall₂ R) ps qs) : ps.map List.length = qs.map List.length := by
  induction h with
  | nil => rfl
  | cons hp _ ih => simp [hp.length_eq, ih]

/-- Two element-wise maps of one partition zip into the pairs of their values. -/
theorem forall₂_zip_pairs {R S : PyObj → PyObj → Prop} :
    ∀ {p a b : List PyObj}, List.Forall₂ R p a → List.Forall₂ S p b →
      List.Forall₂ (fun e v => ∃ x y, R e x ∧ S e y ∧ v = PyObj.tuple [x, y]) p
        ((a.zip b).map fun ab => PyObj.tuple [ab.1, ab.2])
  | [], [], [], .nil, .nil => .nil
  | _ :: _, _ :: _, _ :: _, .cons hr hrs, .cons hs hss =>
    .cons ⟨_, _, hr, hs, rfl⟩ (forall₂_zip_pairs hrs hss)

/-- Two element-wise maps of a collection zip into the pairs of their values, element by
element of the collection. -/
theorem forall₂_zipPairs {R S : PyObj → PyObj → Prop} :
    ∀ {ps as bs : List (List PyObj)}, List.Forall₂ (List.Forall₂ R) ps as →
      List.Forall₂ (List.Forall₂ S) ps bs →
      List.Forall₂ (fun e v => ∃ x y, R e x ∧ S e y ∧ v = PyObj.tuple [x, y]) ps.flatten
        (zipPairs as bs).flatten
  | [], [], [], .nil, .nil => .nil
  | _ :: _, _ :: _, _ :: _, .cons hr hrs, .cons hs hss => by
    simp only [zipPairs, List.zipWith_cons_cons, List.map_cons, List.flatten_cons]
    exact List.rel_append (forall₂_zip_pairs hr hs) (forall₂_zipPairs hrs hss)

/-- The new collection a call appends computes, whatever the call then sets below it. -/
theorem computes_fresh {h : Heap} {x : Nat} {o : SparkXShards} {qs : List (List PyObj)}
    (hx : x < h.objs.length) (hr : o.rdd.computed = .ok qs) (a : SparkXShards) :
    Heap.Computes ⟨(h.objs ++ [o]).set x a⟩ h.objs.length qs :=
  (Heap.computes_last hr).set_ne (by omega) a

/-- `collect()` of a collection that computes. -/
theorem collect_of_computes {h : Heap} {w : Nat} {ps : List (List PyObj)} (hc : h.Computes w ps) :
    collect w h = (.ok ps.flatten, h) := by
  obtain ⟨o, ho, hr⟩ := hc
  rw [Rdd.computed_eq_ok_iff] at hr
  rw [collect, query_apply ho, hr, Rdd.collect_ofParts]

section Derived

variable {env : Env} {h : Heap} {x : Nat} {ps : List (List PyObj)}

theorem transformShard_aligned (env : Env) (hx : h.Computes x ps) {f : PyObj → Except PyError PyObj}
    (hf : ∀ e ∈ ps.flatten, ∃ v, f e = .ok v) :
    ∃ t h', transformShard env f x h = (.ok t, h') ∧ h'.Computes x ps ∧
      ∃ qs, h'.Computes t qs ∧ List.Forall₂ (List.Forall₂ fun e v => f e = .ok v) ps qs := by
  obtain ⟨o, ho, hr⟩ := hx
  obtain ⟨qs, hqs⟩ := Rdd.exists_forall₂_of_total hf
  have hxl := (List.getElem?_eq_some_iff.mp ho).1
  exact ⟨_, _, transformShard_apply ho hr hqs,
    (Heap.Computes.append ⟨o, ho, hr⟩ _).set_after
      (by rw [List.getElem?_append_left hxl]; exact ho) _,
    qs, computes_fresh hxl (Rdd.computed_ofParts qs) _, hqs⟩

theorem getItem_aligned (env : Env) (hx : h.Computes x ps) {key : PyObj}
    (hk : ∀ e ∈ ps.flatten, ∃ v, e.getItem key = .ok v) :
    ∃ t h', getItem env x key h = (.ok t, h') ∧ h'.Computes x ps ∧
      ∃ qs, h'.Computes t qs ∧ List.Forall₂ (List.Forall₂ fun e v => e.getItem key = .ok v) ps qs := by
  obtain ⟨o, ho, hr⟩ := hx
  obtain ⟨qs, hqs⟩ := Rdd.exists_forall₂_of_total hk
  refine ⟨_, _, getItem_apply ho key, Heap.Computes.append ⟨o, ho, hr⟩ _, qs,
    Heap.computes_last ?_, hqs⟩
  rw [Rdd.computed_eq_ok_iff] at hr ⊢
  exact hr ▸ Rdd.map_ofParts_eq (hqs.imp fun _ _ hp => hp.imp fun _ _ => getData_of_getItem)

theorem split_aligned (env : Env) (hx : h.Computes x ps) (hne : ps.flatten ≠ []) {m : Nat} (h2 : 2 ≤ m)
    (hm : ∀ e ∈ ps.flatten, splitLength e = m) :
    ∃ ts h', split env x h = (.ok ts, h') ∧ ts.length = m ∧ h'.Computes x ps ∧
      ∀ i < m, ∃ qs, h'.Computes (ts.getD i 0) qs ∧
        List.Forall₂ (List.Forall₂ fun e v => e.getItem (.int i) = .ok v) ps qs := by
  obtain ⟨o, ho, hr⟩ := hx
  have hxl := (List.getElem?_eq_some_iff.mp ho).1
  refine ⟨_, _, split_parts ho hr hne hm h2, by simp,
    (Heap.Computes.append ⟨o, ho, hr⟩ _).set_after
      (by rw [List.getElem?_append_left hxl]; exact ho) _, fun i hi => ?_⟩
  obtain ⟨qs, hqs, hR⟩ := split_component hr hm h2 hi
  refine ⟨qs, ⟨mk (o.rdd.map (getIndex i)) true false, ?_, hqs⟩, hR⟩
  rw [List.getD_eq_getElem?_getD, List.getElem?_range' _ _ hi, Option.getD_some,
    List.getElem?_set_ne (by omega), List.getElem?_append_right (by omega)]
  simp [hi]

theorem split_raises_iff (env : Env) (hx : h.Computes x ps) (hne : ps.flatten ≠ []) :
    (∃ err h', split env x h = (.error err, h')) ↔ ¬∃ m, ∀ e ∈ ps.flatten, splitLength e = m := by
  obtain ⟨o, ho, hr⟩ := hx
  constructor
  · rintro ⟨err, h', hs⟩ ⟨m, hm⟩
    rcases Nat.lt_or_ge m 2 with hm1 | h2
    · rw [split_self ho hr hne hm (by omega)] at hs
      cases hs
    · rw [split_parts ho hr hne hm h2] at hs
      cases hs
  · exact fun hne' => ⟨_, _, split_uneven ho hr hne'⟩

end Derived

/-! ## Collections of one layout zip position by position -/

theorem zip_of_layout (env : Env) {h : Heap} {y z : Nat} {ps qs : List (List PyObj)}
    (hy : h.Computes y ps) (hz : h.Computes z qs) (hl : ps.map List.length = qs.map List.length) :
    ∃ w h', zip env y z h = (.ok w, h') ∧ h'.Computes w (zipPairs ps qs) := by
  obtain ⟨oy, hoy, hry⟩ := hy
  obtain ⟨oz, hoz, hrz⟩ := hz
  have hyl := (List.getElem?_eq_some_iff.mp hoy).1
  have hzl := (List.getElem?_eq_some_iff.mp hoz).1
  refine ⟨_, _, zip_aligned hoy hoz hry hrz hl, ?_⟩
  exact (computes_fresh hzl (Rdd.computed_ofParts _) _).set_ne (by omega) _

/-- What `split()` and `zip` do to a collection `x` that computes to `ps`, stated for any
of its layouts. -/
structure SplitZipLaws (env : Env) (h : Heap) (x : Nat) (ps : List (List PyObj)) : Prop where
  /-- `transform_shard(f)`, `f` succeeding on every element, maps the elements one for one. -/
  transformLayout : ∀ f : PyObj → Except PyError PyObj, (∀ e ∈ ps.flatten, ∃ v, f e = .ok v) →
    ∃ t h', transformShard env f x h = (.ok t, h') ∧ h'.Computes x ps ∧
      ∃ qs, h'.Computes t qs ∧ List.Forall₂ (List.Forall₂ fun e v => f e = .ok v) ps qs
  /-- `x[key]`, `key` valid for every element, maps the elements one for one. -/
  getItemLayout : ∀ key : PyObj, (∀ e ∈ ps.flatten, ∃ v, e.getItem key = .ok v) →
    ∃ t h', getItem env x key h = (.ok t, h') ∧ h'.Computes x ps ∧
      ∃ qs, h'.Computes t qs ∧ List.Forall₂ (List.Forall₂ fun e v => e.getItem key = .ok v) ps qs
  /-- Elements of one split length `m ≥ 2` give `m` components, component `i` holding
  `e[i]` for every element `e`. -/
  splitLayout : ∀ m, 2 ≤ m → (∀ e ∈ ps.flatten, splitLength e = m) →
    ∃ ts h', split env x h = (.ok ts, h') ∧ ts.length = m ∧ h'.Computes x ps ∧
      ∀ i < m, ∃ qs, h'.Computes (ts.getD i 0) qs ∧
        List.Forall₂ (List.Forall₂ fun e v => e.getItem (.int i) = .ok v) ps qs
  /-- Any two collections of one layout zip position by position. -/
  zipLayout : ∀ (h : Heap) (y z : Nat) (ps' qs' : List (List PyObj)), h.Computes y ps' →
    h.Computes z qs' → ps'.map List.length = qs'.map List.length →
    ∃ w h', zip env y z h = (.ok w, h') ∧ h'.Computes w (zipPairs ps' qs')
  /-- Splitting pairs and zipping the two components gives back `(e[0], e[1])` for every
  element `e`, in order. -/
  splitZip : (∀ e ∈ ps.flatten, splitLength e = 2) →
    ∃ t₀ t₁ h₁, split env x h = (.ok [t₀, t₁], h₁) ∧ ∃ w h₂, zip env t₀ t₁ h₁ = (.ok w, h₂) ∧
      ∃ vs, collect w h₂ = (.ok vs, h₂) ∧
        List.Forall₂ (fun e v => ∃ a b, e.getItem (.int 0) = .ok a ∧ e.getItem (.int 1) = .ok b ∧
          v = .tuple [a, b]) ps.flatten vs
  /-- `split()` raises exactly when the split lengths differ. -/
  splitRaises : (∃ err h', split env x h = (.error err, h')) ↔
    ¬∃ m, ∀ e ∈ ps.flatten, splitLength e = m
  /-- A common split length of at most one gives back `[x]`. -/
  splitSelf : ∀ m ≤ 1, (∀ e ∈ ps.flatten, splitLength e = m) → split env x h = (.ok [x], h)

theorem split_zip_pairs (env : Env) {h : Heap} {x : Nat} {ps : List (List PyObj)}
    (hx : h.Computes x ps) (hne : ps.flatten ≠ []) (h2 : ∀ e ∈ ps.flatten, splitLength e = 2) :
    ∃ t₀ t₁ h₁, split env x h = (.ok [t₀, t₁], h₁) ∧ ∃ w h₂, zip env t₀ t₁ h₁ = (.ok w, h₂) ∧
      ∃ vs, collect w h₂ = (.ok vs, h₂) ∧
        List.Forall₂ (fun e v => ∃ a b, e.getItem (.int 0) = .ok a ∧ e.getItem (.int 1) = .ok b ∧
          v = .tuple [a, b]) ps.flatten vs := by
  obtain ⟨ts, h₁, hs, hlen, -, hcomp⟩ := split_aligned env hx hne le_rfl h2
  match ts, hlen with
  | [t₀, t₁], _ =>
    obtain ⟨qs₀, hc₀, hR₀⟩ := hcomp 0 (by omega)
    obtain ⟨qs₁, hc₁, hR₁⟩ := hcomp 1 (by omega)
    obtain ⟨w, h₂, hz, hw⟩ := zip_of_layout env hc₀ hc₁
      ((layout_of_forall₂ hR₀).symm.trans (layout_of_forall₂ hR₁))
    exact ⟨t₀, t₁, h₁, hs, w, h₂, hz, _, collect_of_computes hw, forall₂_zipPairs hR₀ hR₁⟩

/-- The collections derived element by element from a collection with at least one element
keep its layout, zip with it and with each other, and `split()` raises exactly on
uneven split lengths. -/
theorem derived_collections_align (env : Env) (h : Heap) (x : Nat) (ps : List (List PyObj))
    (hx : h.Computes x ps) (hne : ps.flatten ≠ []) : SplitZipLaws env h x ps where
  transformLayout _ hf := transformShard_aligned env hx hf
  getItemLayout _ hk := getItem_aligned env hx hk
  splitLayout _ h2 hm := split_aligned env hx hne h2 hm
  zipLayout _ _ _ _ _ hy hz hl := zip_of_layout env hy hz hl
  splitZip h2 := split_zip_pairs env hx hne h2
  splitRaises := split_raises_iff env hx hne
  splitSelf _ hm1 hm := by
    obtain ⟨o, ho, hr⟩ := hx
    exact split_self ho hr hne hm hm1

theorem derived_collections_align_on_pairs :
    SplitZipLaws (Env.simple true) ⟨[mk (Rdd.ofParts [[.tuple [.int 1, .int 2]]]) true false]⟩ 0
      [[.tuple [.int 1, .int 2]]] :=
  derived_collections_align _ _ _ _ ⟨_, rfl, Rdd.computed_ofParts _⟩ (by simp)

/-! ## What `zip` does in either mode -/

/-- The heap `zip` leaves after it succeeds: the zipped collection on top, both sources
demoted. -/
theorem zip_heap {h : Heap} {x y : Nat} {ox oy : SparkXShards} (o' : SparkXShards)
    (hx : h.objs[x]? = some ox)
    (hy : h.objs[y]? = some oy) :
    let h' : Heap := ⟨((h.objs ++ [o']).set y (oy.after .demote)).set x (ox.after .demote)⟩
    h'.objs[h.objs.length]? = some o' ∧ h'.objs[x]? = some (ox.after .demote) ∧
      h'.objs[y]? = some (oy.after .demote) := by
  have hxl := (List.getElem?_eq_some_iff.mp hx).1
  have hyl := (List.getElem?_eq_some_iff.mp hy).1
  refine ⟨by simp [List.getElem?_set_ne (show x ≠ h.objs.length by omega),
      List.getElem?_set_ne (show y ≠ h.objs.length by omega)],
    List.getElem?_set_self (by simp; omega), ?_⟩
  by_cases hxy : x = y
  · subst hxy
    obtain rfl : oy = ox := Option.some.inj (hy.symm.trans hx)
    exact List.getElem?_set_self (by simp; omega)
  · rw [List.getElem?_set_ne hxy, List.getElem?_set_self (by simp; omega)]

/-- What `zip` does in eager mode to two collections `x` and `y` that compute to `ps` and
`qs`. -/
structure EagerZipLaws (env : Env) (h : Heap) (x y : Nat) (ox oy : SparkXShards)
    (ps qs : List (List PyObj)) : Prop where
  /-- Different partition counts raise an `AssertionError` and change nothing. -/
  countMismatch : ps.length ≠ qs.length → zip env x y h = (.error ⟨.assertionError,
    "The two SparkXShards should have the same number of partitions"⟩, h)
  /-- Partitions of different lengths raise a `ValueError` and change nothing. -/
  sizeMismatch : ps.length = qs.length → ps.map List.length ≠ qs.map List.length →
    zip env x y h = (.error ⟨.valueError, zipMismatchMsg⟩, h)
  /-- Otherwise the zipped collection holds the position-wise pairs and both sources are
  demoted. -/
  aligned : ps.map List.length = qs.map List.length →
    ∃ h', zip env x y h = (.ok h.objs.length, h') ∧ h'.Computes h.objs.length (zipPairs ps qs) ∧
      h'.objs[x]? = some (ox.after .demote) ∧ h'.objs[y]? = some (oy.after .demote)
  /-- A collection `zip` returns computes. -/
  computes : ∀ z h', zip env x y h = (.ok z, h') → ∃ vs, collect z h' = (.ok vs, h')

/-- In eager mode `zip` raises on every misalignment, leaving the collections as they were,
and otherwise pairs the partitions position by position and demotes both sources. -/
theorem zip_eager_outcomes (env : Env) (he : env.eagerMode = true) (h : Heap) (x y : Nat)
    (ox oy : SparkXShards) (ps qs : List (List PyObj)) (hx : h.objs[x]? = some ox)
    (hy : h.objs[y]? = some oy) (hrx : ox.rdd.computed = .ok ps)
    (hry : oy.rdd.computed = .ok qs) : EagerZipLaws env h x y ox oy ps qs := by
  have hcount : ps.length ≠ qs.length → ox.rdd.numPartitions ≠ oy.rdd.numPartitions := by
    rw [Rdd.computed_eq_ok_iff] at hrx hry
    simp [hrx, hry]
  have haligned : ps.map List.length = qs.map List.length →
      ∃ h', zip env x y h = (.ok h.objs.length, h') ∧
        h'.Computes h.objs.length (zipPairs ps qs) ∧
        h'.objs[x]? = some (ox.after .demote) ∧ h'.objs[y]? = some (oy.after .demote) := by
    intro hl
    obtain ⟨hz, hx', hy'⟩ := zip_heap (mk (Rdd.ofParts (zipPairs ps qs)) true false) hx hy
    exact ⟨_, zip_aligned hx hy hrx hry hl, ⟨_, hz, Rdd.computed_ofParts _⟩, hx', hy'⟩
  refine ⟨fun hk => zip_count_ne hx hy (hcount hk),
    zip_misaligned_eager he hx hy hrx hry, haligned, fun z h' hz => ?_⟩
  by_cases hl : ps.map List.length = qs.map List.length
  · obtain ⟨h'', hzip, hc, -⟩ := haligned hl
    rw [hzip] at hz
    cases hz
    exact ⟨_, collect_of_computes hc⟩
  · by_cases hk : ps.length = qs.length
    · rw [zip_misaligned_eager he hx hy hrx hry hk hl] at hz
      cases hz
    · rw [zip_count_ne hx hy (hcount hk)] at hz
      cases hz

theorem zip_eager_outcomes_on_one_pair :
    EagerZipLaws (Env.simple true)
      ⟨[mk (Rdd.ofParts [[.int 1]]) true false, mk (Rdd.ofParts [[.int 2]]) true false]⟩ 0 1
      (mk (Rdd.ofParts [[.int 1]]) true false) (mk (Rdd.ofParts [[.int 2]]) true false)
      [[.int 1]] [[.int 2]] :=
  zip_eager_outcomes _ rfl _ _ _ _ _ _ _ rfl rfl (Rdd.computed_ofParts _) (Rdd.computed_ofParts _)

/-- In lazy mode `zip` of two one-partition collections holding one and two elements
returns, and collecting the collection it returns raises `PairDeserializer`'s `ValueError`
on the driver: the two partitions fit one batch each. -/
theorem zip_lazy_returns_misaligned :
    ∃ h', zip (Env.simple false) 0 1
        ⟨[mk (Rdd.ofParts [[.int 1]]) true false, mk (Rdd.ofParts [[.int 1, .int 2]]) true false]⟩ =
        (.ok 2, h') ∧
      collect 2 h' = (.error ⟨.valueError, Rdd.pairBatchesMsg 1 2⟩, h') :=
  ⟨_, rfl, rfl⟩

end SparkXShards
end OrcaXShards
