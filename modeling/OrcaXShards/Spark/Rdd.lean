import OrcaXShards.Python.Object

/-!
# The Spark substrate

`shard.py` treats Spark as a collaborator: it builds RDDs with narrow transformations
(`map`, `mapPartitions`, `flatMap`, `zip`), reshapes them with `coalesce`, `repartition`
and `partitionBy`, and runs actions (`collect`, `count`, `first`, `reduce`).  An RDD is
modelled as the driver sees it once computed: one entry per partition, holding that
partition's elements or the error its task raised.  Recomputing an RDD gives the same
partitions.

Where Spark moves data between partitions it makes choices the code does not control:
which parents a coalesced partition reads, where a shuffle sends each element, and in
which order a partition fetches its records.  A `Scheduler` bundles these choices with
the guarantees Spark gives about them.  Every result about the code quantifies over all
schedulers.
-/

namespace OrcaXShards

/-- An RDD: for each partition, its elements or the error its task raised. -/
structure Rdd (α : Type) where
  parts : List (Except PyError (List α))

/-- The choices Spark makes when it moves data between partitions, with the guarantees
the model relies on. -/
structure Scheduler where
  /-- For `coalesce(n)` over `k ≥ n` parents: the parents each output partition reads. -/
  coalesce : Nat → Nat → List (List Nat)
  coalesce_length : ∀ k n, 0 < n → n ≤ k → (coalesce k n).length = n
  coalesce_nonempty : ∀ k n, 0 < n → n ≤ k → ∀ g ∈ coalesce k n, g ≠ []
  coalesce_perm : ∀ k n, 0 < n → n ≤ k → (coalesce k n).flatten.Perm (List.range k)
  /-- For a shuffle of partitions of the given sizes into `n` partitions: the positions,
  in the concatenation of the inputs, each output partition reads. -/
  shuffle : List Nat → Nat → List (List Nat)
  shuffle_length : ∀ sizes n, 0 < n → (shuffle sizes n).length = n
  shuffle_perm : ∀ sizes n, 0 < n → (shuffle sizes n).flatten.Perm (List.range sizes.sum)
  /-- The order in which output partition `b` of a hash partitioning reads the records
  sent to it, given by their positions in the concatenation of the inputs. -/
  fetch : Nat → List Nat → List Nat
  fetch_perm : ∀ b ps, (fetch b ps).Perm ps
  /-- How `parallelize` cuts a list of the given length into consecutive slices. -/
  slices : Nat → List Nat
  slices_sum : ∀ len, (slices len).sum = len

/-- Consecutive slices of the given sizes. -/
def sliceBy {α : Type} : List Nat → List α → List (List α)
  | [], _ => []
  | s :: ss, xs => xs.take s :: sliceBy ss (xs.drop s)

/-- The partition `portable_hash(key) % n` sends a record to. -/
def bucket (h : Int) (n : Nat) : Nat := (h % (n : Int)).toNat

theorem bucket_lt (h : Int) {n : Nat} (hn : 0 < n) : bucket h n < n := by
  have h0 := Int.emod_nonneg h (by omega : (n : Int) ≠ 0)
  have h1 := Int.emod_lt_of_pos h (by omega : (0 : Int) < n)
  unfold bucket
  omega

/-- A lawful scheduler: `coalesce` leaves the first `n - 1` parents alone and gathers the
rest into the last group, a shuffle sends everything to partition `0`, a partition reads
its records in the order they were sent, and `parallelize` makes one slice.  It shows that
the laws of `Scheduler` can be met. -/
def Scheduler.simple : Scheduler where
  coalesce k n := (List.range (n - 1)).map (fun g => [g]) ++ [List.range' (n - 1) (k + 1 - n)]
  coalesce_length k n hn _ := by simp; omega
  coalesce_nonempty k n hn hnk g hg := by
    simp only [List.mem_append, List.mem_map, List.mem_singleton] at hg
    rcases hg with ⟨g', -, rfl⟩ | rfl
    · simp
    · simp [List.range'_eq_nil]; omega
  coalesce_perm k n hn hnk := by
    have hflat : ((List.range (n - 1)).map fun g => [g]).flatten = List.range (n - 1) := by
      induction n - 1 with
      | zero => rfl
      | succ m ih => simp [List.range_succ, ih]
    have hsplit := List.range'_append_1 0 (n - 1) (k + 1 - n)
    rw [Nat.zero_add, show k + 1 - n + (n - 1) = k by omega] at hsplit
    show (List.map (fun g => [g]) (List.range (n - 1)) ++
      [List.range' (n - 1) (k + 1 - n)]).flatten.Perm _
    rw [List.flatten_append, hflat, List.flatten_singleton, List.range_eq_range', hsplit,
      List.range_eq_range']
  shuffle sizes n := List.range sizes.sum :: List.replicate (n - 1) []
  shuffle_length sizes n hn := by simp; omega
  shuffle_perm sizes n _ := by simp
  fetch _ ps := ps
  fetch_perm _ ps := List.Perm.refl ps
  slices len := [len]
  slices_sum len := by simp

section Coalesce

variable {α : Type}

theorem length_le_flatten_length : ∀ {L : List (List α)}, (∀ g ∈ L, g ≠ []) →
    L.length ≤ L.flatten.length
  | [], _ => le_rfl
  | g :: L, hne => by
    have := length_le_flatten_length (L := L) fun g' hg' => hne g' (by simp [hg'])
    have hg : g.length ≠ 0 := by simpa using hne g (by simp)
    simp only [List.length_cons, List.flatten_cons, List.length_append]
    omega

theorem length_eq_one_of_flatten : ∀ {L : List (List α)}, (∀ g ∈ L, g ≠ []) →
    L.flatten.length = L.length → ∀ g ∈ L, g.length = 1
  | [], _, _ => by simp
  | g :: L, hne, hsum => by
    have hL := length_le_flatten_length (L := L) fun g' hg' => hne g' (by simp [hg'])
    have hg : g.length ≠ 0 := by simpa using hne g (by simp)
    simp only [List.length_cons, List.flatten_cons, List.length_append] at hsum
    intro g' hg'
    rcases List.mem_cons.mp hg' with rfl | hg'
    · omega
    · exact length_eq_one_of_flatten (L := L) (fun g'' h'' => hne g'' (by simp [h''])) (by omega) g' hg'

/-- Coalescing `k` partitions into `k` leaves every parent in a group of its own. -/
theorem Scheduler.coalesce_self (sch : Scheduler) {k : Nat} (hk : 0 < k) :
    (∀ g ∈ sch.coalesce k k, ∃ i < k, g = [i]) ∧ ∀ i < k, [i] ∈ sch.coalesce k k := by
  have hperm := sch.coalesce_perm k k hk le_rfl
  have hone := length_eq_one_of_flatten (sch.coalesce_nonempty k k hk le_rfl)
    (by rw [hperm.length_eq, List.length_range, sch.coalesce_length k k hk le_rfl])
  have hsingle : ∀ g ∈ sch.coalesce k k, ∃ i < k, g = [i] := fun g hg => by
    obtain ⟨i, rfl⟩ := List.length_eq_one.mp (hone g hg)
    exact ⟨i, List.mem_range.mp (hperm.subset (List.mem_flatten.mpr ⟨[i], hg, by simp⟩)), rfl⟩
  refine ⟨hsingle, fun i hi => ?_⟩
  obtain ⟨g, hg, hig⟩ := List.mem_flatten.mp (hperm.symm.subset (List.mem_range.mpr hi))
  obtain ⟨j, -, rfl⟩ := hsingle g hg
  rwa [List.mem_singleton.mp hig]

end Coalesce

section Buckets

variable {α β : Type}

/-- Reading the positions of a list that pass a test gives its items that pass it. -/
theorem filterMap_getElem?_range_filter (l : List α) {q : Nat → Bool} {p : α → Bool}
    (hq : ∀ i (hi : i < l.length), q i = p l[i]) :
    ((List.range l.length).filter q).filterMap (l[·]?) = l.filter p := by
  induction l generalizing q with
  | nil => rfl
  | cons a l ih =>
    have h0 := hq 0 (by simp)
    rw [List.length_cons, List.range_succ_eq_map, List.filter_cons, List.filter_map,
      List.filter_cons]
    have ih' := ih (q := fun i => q (i + 1)) fun i hi => hq (i + 1) (by simp; omega)
    simp only [List.getElem_cons_zero] at h0
    rw [h0]
    split <;> simp [List.filterMap_map, Function.comp_def, ih']

/-- Every item of a list whose label is below `n` sits in exactly one of the `n` filters by
label. -/
theorem flatMap_range_filter_perm (f : α → Nat) :
    ∀ (n : Nat) (l : List α), (∀ x ∈ l, f x < n) →
      ((List.range n).flatMap fun i => l.filter (f · = i)).Perm l
  | 0, [], _ => .nil
  | 0, x :: _, h => absurd (h x (by simp)) (by omega)
  | n + 1, l, h => by
    have ih := flatMap_range_filter_perm f n (l.filter (f · < n)) (by simp)
    have hlow : ∀ i ∈ List.range n, (l.filter (f · < n)).filter (f · = i) = l.filter (f · = i) := by
      intro i hi
      rw [List.filter_filter]
      exact List.filter_congr fun x _ => by
        by_cases hx : f x = i <;> simp [hx, List.mem_range.mp hi]
    have htop : l.filter (f · = n) = l.filter (fun x => !decide (f x < n)) :=
      List.filter_congr fun x hx => by
        have hxn : f x = n ↔ ¬f x < n := by have := h x hx; omega
        simp only [hxn, decide_not]
    rw [List.range_succ, List.flatMap_append, List.flatMap_singleton, htop,
      ← List.flatMap_congr hlow]
    exact (ih.append_right _).trans (List.filter_append_perm _ l)

/-- A list of lists is the concatenation of its entries by index. -/
theorem flatten_eq_flatMap_range_getD : ∀ L : List (List α),
    L.flatten = (List.range L.length).flatMap fun b => L.getD b []
  | [] => rfl
  | a :: L => by
    rw [List.length_cons, List.range_succ_eq_map, List.flatMap_cons, List.flatMap_map,
      List.flatten_cons, flatten_eq_flatMap_range_getD L]
    rfl

/-- Partitions that each hold, in some order, the items of one label hold all the items. -/
theorem flatten_perm_of_buckets {L : List (List β)} {l : List α} {f : α → Nat} {g : α → β}
    (hf : ∀ x ∈ l, f x < L.length)
    (hL : ∀ b (hb : b < L.length), L[b].Perm ((l.filter (f · = b)).map g)) :
    L.flatten.Perm (l.map g) := by
  rw [flatten_eq_flatMap_range_getD]
  refine (List.Perm.flatMap_left (g := fun b => (l.filter (f · = b)).map g) _
    fun b hb => ?_).trans ?_
  · have hb' := List.mem_range.mp hb
    simpa [List.getD_eq_getElem?_getD, hb'] using hL b hb'
  · rw [← List.map_flatMap]
    exact (flatMap_range_filter_perm f _ l hf).map g

/-- Consecutive slices whose sizes add up to the list's length concatenate to it. -/
theorem sliceBy_flatten : ∀ (ss : List Nat) (xs : List α), ss.sum = xs.length →
    (sliceBy ss xs).flatten = xs
  | [], xs, h => by simp at h; simp [sliceBy, List.eq_nil_of_length_eq_zero h.symm]
  | s :: ss, xs, h => by
    rw [sliceBy, List.flatten_cons, sliceBy_flatten ss (xs.drop s) (by simp at h ⊢; omega),
      List.take_append_drop]

end Buckets

namespace Rdd

variable {α β κ : Type}

/-- An RDD whose partitions all computed, holding these elements. -/
def ofParts (ps : List (List α)) : Rdd α := ⟨ps.map .ok⟩

/-- `rdd.getNumPartitions()`. -/
def numPartitions (r : Rdd α) : Nat := r.parts.length

/-- A partition as a task that reads it sees it: the error of a failed partition raised as
the reader raises it. -/
def readPart (p : Except PyError (List α)) : Except PyError (List α) :=
  p.mapError PyError.asRaised

@[simp]
theorem readPart_ok (xs : List α) : readPart (.ok xs : Except PyError (List α)) = .ok xs := rfl

/-- `rdd.mapPartitions(g)`. -/
def mapPartitions (g : List α → Except PyError (List β)) (r : Rdd α) : Rdd β :=
  ⟨r.parts.map fun p => readPart p >>= g⟩

/-- `rdd.mapPartitionsWithIndex(g)`. -/
def mapPartitionsWithIndex (g : Nat → List α → Except PyError (List β)) (r : Rdd α) :
    Rdd β :=
  ⟨r.parts.enum.map fun p => readPart p.2 >>= g p.1⟩

/-- `rdd.map(f)`. -/
def map (f : α → Except PyError β) (r : Rdd α) : Rdd β :=
  r.mapPartitions (·.mapM f)

/-- `rdd.flatMap(f)`. -/
def flatMap (f : α → Except PyError (List β)) (r : Rdd α) : Rdd β :=
  r.mapPartitions fun xs => (xs.mapM f).map List.flatten

/-- The partitions, once every task has succeeded. -/
def computed (r : Rdd α) : Except PyError (List (List α)) := r.parts.mapM id

/-- Whether a partition failed in its task, as opposed to failing only its reader. -/
def failedInTask : Except PyError (List α) → Bool
  | .error e => e.kind != .pairBatches
  | .ok _ => false

/-- `rdd.collect()`: every partition's elements in order.  The job computes every
partition first, and a task error reaches the driver as a `Py4JJavaError`; the driver then
reads the partitions in order and raises a reader's error itself. -/
def collect (r : Rdd α) : Except PyError (List α) :=
  match r.parts.find? failedInTask with
  | some (.error e) => .error e.onDriver
  | _ => match r.computed with
    | .ok ps => .ok ps.flatten
    | .error e => .error e.asRaised

/-- `rdd.count()`: a job that counts each partition's elements in its task. -/
def count (r : Rdd α) : Except PyError Nat :=
  (r.mapPartitions fun xs => .ok [xs.length]).collect.map List.sum

/-- PySpark's `take(1)`, which `first()` calls: it runs partition 0, then batches of the
following partitions, four times as many as scanned so far, until one yields an element. -/
def takeFirst : Nat → Nat → List (Except PyError (List α)) → Except PyError (Option α)
  | 0, _, _ => .ok Option.none
  | _ + 1, _, [] => .ok Option.none
  | fuel + 1, scanned, p :: ps =>
    let batch := (p :: ps).take (if scanned = 0 then 1 else 4 * scanned)
    match batch.mapM id with
    | .error e => .error e
    | .ok qs => match qs.flatten with
      | x :: _ => .ok (some x)
      | [] => takeFirst fuel (scanned + batch.length) ((p :: ps).drop batch.length)

/-- `rdd.first()`. -/
def first (r : Rdd α) : Except PyError α :=
  match takeFirst r.parts.length 0 r.parts with
  | .ok (some x) => .ok x
  | .ok Option.none => .error ⟨.valueError, "RDD is empty"⟩
  | .error e => .error e.onDriver

/-- `rdd.reduce(f)`: each partition folds its elements, then the driver folds the
partitions' results.  An RDD with no element raises. -/
def reduce (f : α → α → Except PyError α) (r : Rdd α) : Except PyError α :=
  match (r.mapPartitions fun
      | [] => .ok []
      | x :: xs => (xs.foldlM f x).map ([·])).collect with
  | .ok [] => .error ⟨.valueError, "Can not reduce() empty RDD"⟩
  | .ok (v :: vs) => vs.foldlM f v
  | .error e => .error e

/-- The message of Spark's `zip` for partitions of different numbers of batches. -/
def zipPartMsg : String := "Can only zip RDDs with same number of elements in each partition"

/-- The batches of 100 that `zip` cuts a partition of `n` elements into. -/
def zipBatches (n : Nat) : Nat := (n + 99) / 100

/-- The message of `PairDeserializer` for two batches of `x` and `y` items. -/
def pairBatchesMsg (x y : Nat) : String :=
  "Can not deserialize PairRDD with different number of items in batches: (" ++ toString x ++
    ", " ++ toString y ++ ")"

/-- PySpark's `zip` of two partitions of automatically batched RDDs.  Both are cut into
batches of 100 and Spark pairs the batches: different numbers of batches fail the task.
`PairDeserializer` then pairs the items of two batches, and raises for two batches of
different sizes, the last two, wherever the partition is read. -/
def zipPart (a : List α) (b : List β) : Except PyError (List (α × β)) :=
  if a.length = b.length then .ok (a.zip b)
  else if zipBatches a.length = zipBatches b.length then
    .error ⟨.pairBatches, pairBatchesMsg (a.length - 100 * (zipBatches a.length - 1))
      (b.length - 100 * (zipBatches b.length - 1))⟩
  else .error ⟨.py4jJavaError, zipPartMsg⟩

/-- `rdd.zip(other)`.  Different partition counts raise on the driver at once; the tasks
read both parents. -/
def zip (r : Rdd α) (s : Rdd β) : Except PyError (Rdd (α × β)) :=
  if r.numPartitions = s.numPartitions then
    .ok ⟨List.zipWith (fun p q => readPart p >>= fun a => readPart q >>= fun b => zipPart a b)
      r.parts s.parts⟩
  else .error ⟨.valueError, "Can only zip with RDD which has the same number of partitions"⟩

/-- The elements of an RDD under another name, partition by partition: how the model writes
the pairs `PairDeserializer` yields as Python tuples.  No task runs. -/
def relabel (f : α → β) (r : Rdd α) : Rdd β :=
  ⟨r.parts.map (·.map (·.map f))⟩

/-- The message Spark's `coalesce` raises for a partition count of `0`. -/
def nonPositiveMsg : String := "requirement failed: Number of partitions (0) must be positive."

/-- `rdd.coalesce(n)` without a shuffle: output partition `g` reads its group of parents
one after another, and fails when one of them fails. -/
def coalesce (sch : Scheduler) (n : Nat) (r : Rdd α) : Except PyError (Rdd α) :=
  if n = 0 then .error ⟨.py4jJavaError, nonPositiveMsg⟩
  else .ok ⟨(sch.coalesce r.numPartitions (min n r.numPartitions)).map fun g =>
    (g.mapM fun i => r.parts.getD i (.ok [])).map List.flatten⟩

/-- `rdd.repartition(n)`: a shuffle that may send every element to any of `n` new
partitions.  A failed input partition fails every output partition. -/
def repartition (sch : Scheduler) (n : Nat) (r : Rdd α) : Except PyError (Rdd α) :=
  if n = 0 then .error ⟨.py4jJavaError, nonPositiveMsg⟩
  else .ok (match r.computed with
    | .ok ps => ⟨(sch.shuffle (ps.map List.length) n).map fun pos =>
        .ok (pos.filterMap (ps.flatten[·]?))⟩
    | .error e => ⟨List.replicate n (.error e.asRaised)⟩)

/-- `rdd.partitionBy(n)` on (key, value) records: a record goes to partition
`portable_hash(key) % n`, and partition `b` reads its records in the order the scheduler
fetches them.  A failed input partition, or a key `hash` refuses, fails every output
partition. -/
def partitionBy (sch : Scheduler) (hash : κ → Except PyError Int) (n : Nat)
    (r : Rdd (κ × β)) : Rdd (κ × β) :=
  match r.computed with
  | .error e => ⟨List.replicate n (.error e.asRaised)⟩
  | .ok ps =>
    match ps.flatten.mapM fun p => hash p.1 with
    | .error e => ⟨List.replicate n (.error e)⟩
    | .ok hs => ⟨(List.range n).map fun b =>
        .ok ((sch.fetch b ((List.range ps.flatten.length).filter fun i =>
          bucket (hs.getD i 0) n = b)).filterMap (ps.flatten[·]?))⟩

/-- `sc.parallelize(xs)`: the list cut into the scheduler's consecutive slices. -/
def parallelize (sch : Scheduler) (xs : List α) : Rdd α :=
  ofParts (sliceBy (sch.slices xs.length) xs)

/-! ## Computed RDDs -/

theorem mapM_id_map {γ : Type} (g : γ → Except PyError α) :
    ∀ xs : List γ, (xs.map g).mapM id = xs.mapM g
  | [] => rfl
  | x :: xs => by simp only [List.map_cons, List.mapM_cons, id, mapM_id_map g xs]

/-- An RDD computes to `ps` exactly when it is the RDD of those partitions. -/
theorem computed_eq_ok_iff {r : Rdd α} {ps : List (List α)} :
    r.computed = .ok ps ↔ r = ofParts ps := by
  obtain ⟨parts⟩ := r
  simp only [computed, ofParts, mk.injEq, mapM_ok_iff_forall₂, id]
  constructor
  · intro h
    induction h with
    | nil => rfl
    | cons h _ ih => simp [h, ih]
  · rintro rfl
    induction ps with
    | nil => exact .nil
    | cons p ps ih => exact .cons rfl ih

@[simp] theorem computed_ofParts (ps : List (List α)) : (ofParts ps).computed = .ok ps :=
  computed_eq_ok_iff.mpr rfl

@[simp] theorem numPartitions_ofParts (ps : List (List α)) :
    (ofParts ps).numPartitions = ps.length := by
  simp [numPartitions, ofParts]

/-- No task of computed partitions failed. -/
theorem find?_failedInTask_ofParts (ps : List (List α)) :
    (ofParts ps).parts.find? failedInTask = none := by
  simp [ofParts, failedInTask]

@[simp] theorem collect_ofParts (ps : List (List α)) : (ofParts ps).collect = .ok ps.flatten := by
  simp [collect, find?_failedInTask_ofParts]

theorem collect_of_computed {r : Rdd α} {ps : List (List α)} (h : r.computed = .ok ps) :
    r.collect = .ok ps.flatten := by
  rw [computed_eq_ok_iff.mp h, collect_ofParts]

/-- A job reports the first failed partition when that one failed in its task. -/
theorem find?_failedInTask_of_computed {e : PyError} (hk : e.kind ≠ .pairBatches) :
    ∀ {parts : List (Except PyError (List α))}, (⟨parts⟩ : Rdd α).computed = .error e →
      parts.find? failedInTask = some (.error e)
  | [], h => by cases h
  | .error e' :: ps, h => by
    simp only [computed, List.mapM_cons, id] at h
    cases h
    simp [failedInTask, hk]
  | .ok xs :: ps, h => by
    simp only [computed, List.mapM_cons, id] at h
    have hps : (⟨ps⟩ : Rdd α).computed = .error e := by
      simp only [computed, id]
      cases hr : ps.mapM id <;> rw [hr] at h <;> cases h
      rfl
    simp [failedInTask, find?_failedInTask_of_computed hk hps]

/-- A task failure reaches the driver as a `Py4JJavaError`. -/
theorem collect_of_error {r : Rdd α} {e : PyError} (h : r.computed = .error e)
    (hk : e.kind ≠ .pairBatches) : r.collect = .error e.onDriver := by
  obtain ⟨parts⟩ := r
  rw [collect, find?_failedInTask_of_computed hk h]

theorem mapPartitions_ofParts (g : List α → Except PyError (List β)) (ps : List (List α)) :
    (ofParts ps).mapPartitions g = ⟨ps.map g⟩ := by
  simp [mapPartitions, ofParts, bind, Except.bind]

theorem computed_mk_map {γ : Type} (g : γ → Except PyError (List α)) (xs : List γ) :
    (⟨xs.map g⟩ : Rdd α).computed = xs.mapM g :=
  mapM_id_map g xs

theorem collect_mk_map {γ : Type} {g : γ → Except PyError (List α)} {xs : List γ}
    {qs : List (List α)} (h : xs.mapM g = .ok qs) : (⟨xs.map g⟩ : Rdd α).collect = .ok qs.flatten :=
  collect_of_computed ((computed_mk_map g xs).trans h)

@[simp] theorem count_ofParts (ps : List (List α)) :
    (ofParts ps).count = .ok ps.flatten.length := by
  rw [count, mapPartitions_ofParts, collect_mk_map (mapM_ok_map (fun xs => [xs.length]) ps)]
  simp [Except.map, List.length_flatten, Function.comp_def]

/-- A partition-wise transformation of computed partitions computes to what it gives each. -/
theorem mapPartitions_ofParts_eq {g : List α → Except PyError (List β)} {ps : List (List α)}
    {qs : List (List β)} (h : ps.mapM g = .ok qs) :
    (ofParts ps).mapPartitions g = ofParts qs := by
  rw [← computed_eq_ok_iff, mapPartitions_ofParts, computed_mk_map, h]

/-- `map(f)` over computed partitions computes when `f` succeeds on every element. -/
theorem map_ofParts_eq {f : α → Except PyError β} {ps : List (List α)} {qs : List (List β)}
    (h : List.Forall₂ (List.Forall₂ fun e v => f e = .ok v) ps qs) :
    (ofParts ps).map f = ofParts qs :=
  mapPartitions_ofParts_eq
    (mapM_ok_iff_forall₂.mpr (h.imp fun _ _ hp => mapM_ok_iff_forall₂.mpr hp))

/-- A function that succeeds on every element of computed partitions maps them one for
one. -/
theorem exists_forall₂_of_total {f : α → Except PyError β} {ps : List (List α)}
    (hf : ∀ e ∈ ps.flatten, ∃ v, f e = .ok v) :
    ∃ qs, List.Forall₂ (List.Forall₂ fun e v => f e = .ok v) ps qs := by
  obtain ⟨qs, hqs⟩ := exists_mapM_ok (f := fun p => p.mapM f) fun p hp =>
    exists_mapM_ok fun e he => hf e (List.mem_flatten.mpr ⟨p, hp, he⟩)
  exact ⟨qs, (mapM_ok_iff_forall₂.mp hqs).imp fun _ _ h => mapM_ok_iff_forall₂.mp h⟩

/-- `map` of a total function over computed partitions. -/
theorem map_ofParts_ok (f : α → β) (ps : List (List α)) :
    (ofParts ps).map (fun e => .ok (f e)) = ofParts (ps.map (·.map f)) :=
  map_ofParts_eq (List.forall₂_map_right_iff.mpr
    (List.forall₂_same.mpr fun _ _ => List.forall₂_map_right_iff.mpr
      (List.forall₂_same.mpr fun _ _ => rfl)))

/-- A transformation of the partitions that cannot fail computes exactly when the RDD
does, its tasks raising what the reader of a failed partition raises. -/
theorem computed_mapPartitions_of_total {g : List α → Except PyError (List β)}
    {k : List α → List β} (hg : ∀ p, g p = .ok (k p)) (r : Rdd α) :
    (r.mapPartitions g).computed = (r.computed.mapError PyError.asRaised).map (·.map k) := by
  obtain ⟨parts⟩ := r
  simp only [mapPartitions, computed]
  induction parts with
  | nil => rfl
  | cons p ps ih =>
    simp only [List.map_cons, List.mapM_cons, id]
    rw [ih]
    cases p <;> cases ps.mapM id <;>
      simp [hg, readPart, Except.mapError, bind, Except.bind, pure, Except.pure, Except.map]

/-- `count()` of an RDD with a failed partition: the job's tasks fail, and the driver sees
a `Py4JJavaError`. -/
theorem count_of_error {r : Rdd α} {e : PyError} (h : r.computed = .error e) :
    r.count = .error e.onDriver := by
  have hc : (r.mapPartitions fun xs => .ok [xs.length]).computed = .error e.asRaised := by
    rw [computed_mapPartitions_of_total (k := fun xs => [xs.length]) (fun _ => rfl), h]
    rfl
  rw [count, collect_of_error hc e.asRaised_kind_ne, PyError.onDriver_asRaised]
  rfl

@[simp] theorem relabel_ofParts (f : α → β) (ps : List (List α)) :
    (ofParts ps).relabel f = ofParts (ps.map (·.map f)) := by
  simp [relabel, ofParts, Except.map]

/-- A change of names computes exactly when the RDD does. -/
theorem computed_relabel (f : α → β) (r : Rdd α) :
    (r.relabel f).computed = r.computed.map (·.map (·.map f)) := by
  obtain ⟨parts⟩ := r
  simp only [relabel, computed]
  induction parts with
  | nil => rfl
  | cons p ps ih =>
    simp only [List.map_cons, List.mapM_cons, id]
    rw [ih]
    cases p <;> cases ps.mapM id <;> rfl

/-- A change of names fails a task exactly where the RDD does. -/
theorem find?_failedInTask_relabel (f : α → β) (r : Rdd α) :
    (r.relabel f).parts.find? failedInTask = none ↔ r.parts.find? failedInTask = none := by
  simp only [relabel, List.find?_map, Option.map_eq_none']
  have : (failedInTask ∘ fun p : Except PyError (List α) => p.map (·.map f)) = failedInTask := by
    funext p
    cases p <;> rfl
  rw [this]

theorem drop_length_take (l : List α) (b : Nat) : l.drop (l.take b).length = l.drop b := by
  rw [List.length_take]
  rcases le_total b l.length with hb | hb
  · rw [Nat.min_eq_left hb]
  · rw [Nat.min_eq_right hb, List.drop_eq_nil_of_le hb, List.drop_length]

theorem takeFirst_map_ok : ∀ (fuel scanned : Nat) (ps : List (List α)), ps.length ≤ fuel →
    takeFirst fuel scanned (ps.map .ok) = .ok ps.flatten.head?
  | 0, _, ps, h => by
    rw [List.length_eq_zero.mp (Nat.le_zero.mp h)]
    rfl
  | _ + 1, _, [], _ => rfl
  | fuel + 1, scanned, p :: ps, h => by
    have hb : 1 ≤ (if scanned = 0 then 1 else 4 * scanned) := by split <;> omega
    have hsplit := congrArg List.flatten (List.take_append_drop
      (if scanned = 0 then 1 else 4 * scanned) (p :: ps))
    rw [List.flatten_append] at hsplit
    rw [List.map_cons, takeFirst, ← List.map_cons, ← List.map_take, mapM_id_map, mapM_ok_map,
      List.map_id']
    simp only [List.length_map, ← List.map_drop, drop_length_take]
    cases ht : (List.take (if scanned = 0 then 1 else 4 * scanned) (p :: ps)).flatten with
    | cons x xs =>
      rw [← hsplit, ht]
      rfl
    | nil =>
      rw [← hsplit, ht, List.nil_append]
      exact takeFirst_map_ok fuel _ _ (by simp only [List.length_drop, List.length_cons] at h ⊢; omega)

/-- `first()` of computed partitions is their first element. -/
theorem first_ofParts (ps : List (List α)) :
    (ofParts ps).first = match ps.flatten with
      | x :: _ => .ok x
      | [] => .error ⟨.valueError, "RDD is empty"⟩ := by
  simp only [first, ofParts, List.length_map, takeFirst_map_ok _ 0 ps le_rfl]
  cases ps.flatten <;> rfl

/-- An RDD with a failed partition, whose other partitions computed or failed alike, fails
with that error. -/
theorem computed_of_error_mem {e : PyError} : ∀ {parts : List (Except PyError (List α))},
    .error e ∈ parts → (∀ p ∈ parts, p = .error e ∨ ∃ xs, p = .ok xs) →
    (⟨parts⟩ : Rdd α).computed = .error e
  | [], hmem, _ => by simp at hmem
  | p :: ps, hmem, hall => by
    simp only [computed, List.mapM_cons, id]
    rcases hall p (by simp) with rfl | ⟨xs, rfl⟩
    · rfl
    · have hmem' : Except.error e ∈ ps := by simpa using hmem
      have := computed_of_error_mem hmem' fun p' hp' => hall p' (by simp [hp'])
      simp only [computed, id] at this
      rw [this]
      rfl

theorem coalesce_group_single {ps : List (List α)} {i : Nat} (hi : i < ps.length) :
    ((([i] : List Nat).mapM fun j => (ps.map Except.ok).getD j (.ok [])).map List.flatten :
      Except PyError (List α)) = .ok ps[i] := by
  rw [List.mapM_cons, List.mapM_nil, List.getD_eq_getElem _ _ (by simpa using hi),
    List.getElem_map]
  simp [bind, Except.bind, pure, Except.pure, Except.map]

/-- `coalesce(k)` of `k` computed partitions followed by `mapPartitions(g)`: under every
scheduler, each output partition is `g` of one input partition, and every input
partition gives one. -/
theorem coalesce_self_mapPartitions (sch : Scheduler) {ps : List (List α)} (hk : 0 < ps.length)
    (g : List α → Except PyError (List β)) :
    ∃ r, (ofParts ps).coalesce sch ps.length = .ok r ∧
      (∀ p ∈ (r.mapPartitions g).parts, ∃ q ∈ ps, p = g q) ∧
      ∀ q ∈ ps, g q ∈ (r.mapPartitions g).parts := by
  obtain ⟨hsingle, hmem⟩ := sch.coalesce_self hk
  refine ⟨_, if_neg (by omega), ?_, ?_⟩
  · intro p hp
    simp only [mapPartitions, numPartitions_ofParts, Nat.min_self, List.map_map,
      List.mem_map, Function.comp] at hp
    obtain ⟨gr, hgr, rfl⟩ := hp
    obtain ⟨i, hi, rfl⟩ := hsingle gr hgr
    exact ⟨ps[i], List.getElem_mem hi, by rw [ofParts, coalesce_group_single hi]; rfl⟩
  · intro q hq
    obtain ⟨i, hi, rfl⟩ := List.getElem_of_mem hq
    simp only [mapPartitions, numPartitions_ofParts, Nat.min_self, List.map_map, List.mem_map,
      Function.comp]
    exact ⟨[i], hmem i hi, by rw [ofParts, coalesce_group_single hi]; rfl⟩

/-- `sc.parallelize(xs)` computes, and its partitions hold `xs` in order. -/
theorem computed_parallelize (sch : Scheduler) (xs : List α) :
    ∃ ps, (parallelize sch xs).computed = .ok ps ∧ ps.flatten = xs :=
  ⟨_, computed_ofParts _, sliceBy_flatten _ xs (sch.slices_sum _)⟩

/-! ## Shuffling and coalescing computed partitions -/

/-- Reading every position of a list gives the list. -/
theorem range_filterMap_getElem? (l : List α) : (List.range l.length).filterMap (l[·]?) = l := by
  simpa using filterMap_getElem?_range_filter l (q := fun _ => true) (p := fun _ => true)
    fun _ _ => rfl

/-- `repartition(n)` of computed partitions: `n` partitions holding, between them, the
elements in some order. -/
theorem repartition_ofParts (sch : Scheduler) (ps : List (List α)) {n : Nat} (hn : 0 < n) :
    ∃ qs, (ofParts ps).repartition sch n = .ok (ofParts qs) ∧ qs.length = n ∧
      qs.flatten.Perm ps.flatten := by
  refine ⟨(sch.shuffle (ps.map List.length) n).map fun pos => pos.filterMap (ps.flatten[·]?),
    ?_, by rw [List.length_map, sch.shuffle_length _ n hn], ?_⟩
  · simp only [repartition, if_neg (Nat.pos_iff_ne_zero.mp hn), computed_ofParts]
    simp [ofParts]
  · rw [← List.filterMap_flatten]
    refine ((sch.shuffle_perm _ n hn).filterMap _).trans ?_
    rw [← List.length_flatten, range_filterMap_getElem?]

/-- `coalesce(n)` of `k ≥ n` computed partitions: `n` partitions, each the concatenation of
a nonempty group of the inputs, holding between them the elements in some order. -/
theorem coalesce_ofParts (sch : Scheduler) (ps : List (List α)) {n : Nat} (hn : 0 < n)
    (hnk : n ≤ ps.length) :
    ∃ qs, (ofParts ps).coalesce sch n = .ok (ofParts qs) ∧ qs.length = n ∧
      qs.flatten.Perm ps.flatten ∧ ((∀ p ∈ ps, p ≠ []) → ∀ q ∈ qs, q ≠ []) := by
  have hget : ∀ i, (ps.map Except.ok).getD i (.ok []) = (.ok (ps.getD i []) : Except PyError (List α)) :=
    fun i => List.getD_map ps [] Except.ok
  have hgroup : ∀ g : List Nat, ((g.mapM fun i => (ps.map Except.ok).getD i (.ok [])).map
      List.flatten : Except PyError (List α)) = .ok (g.map (ps.getD · [])).flatten := fun g => by
    simp only [hget, mapM_ok_map]
    rfl
  have hperm := sch.coalesce_perm ps.length n hn hnk
  refine ⟨(sch.coalesce ps.length n).map fun g => (g.map (ps.getD · [])).flatten, ?_, ?_, ?_, ?_⟩
  · simp only [coalesce, if_neg (Nat.pos_iff_ne_zero.mp hn), numPartitions_ofParts,
      Nat.min_eq_left hnk]
    simp only [ofParts, List.map_map, Function.comp_def]
    exact congrArg (fun l => Except.ok (Rdd.mk l)) (List.map_congr_left fun g _ => hgroup g)
  · rw [List.length_map, sch.coalesce_length _ n hn hnk]
  · rw [flatten_eq_flatMap_range_getD ps]
    simpa [List.flatMap, List.map_flatten, List.flatten_flatten] using
      hperm.flatMap_right (ps.getD · [])
  · intro hps q hq
    obtain ⟨g, hg, rfl⟩ := List.mem_map.mp hq
    obtain ⟨i, is, rfl⟩ := List.exists_cons_of_ne_nil (sch.coalesce_nonempty _ n hn hnk g hg)
    have hi : i < ps.length := List.mem_range.mp
      (hperm.subset (List.mem_flatten.mpr ⟨_, hg, List.mem_cons_self _ _⟩))
    rw [List.map_cons, List.flatten_cons, List.getD_eq_getElem _ _ hi]
    exact fun h => hps _ (List.getElem_mem hi) (List.append_eq_nil.mp h).1
/-! ## Reducing computed partitions -/

/-- What one partition contributes to `reduce`: the fold of its elements, nothing for an
empty partition. -/
def partFold (op : β → β → β) : List β → Option β
  | [] => Option.none
  | b :: bs => some (bs.foldl op b)

section Reduce

variable {f : α → α → Except PyError α} {P : β → Prop} {op : β → β → β} {emb : β → α}

theorem foldl_closed (hP : ∀ a b, P a → P b → P (op a b)) :
    ∀ (l : List β) (a : β), P a → (∀ b ∈ l, P b) → P (l.foldl op a)
  | [], _, ha, _ => ha
  | b :: l, a, ha, hl =>
    foldl_closed hP l (op a b) (hP a b ha (hl b (by simp))) fun c hc => hl c (by simp [hc])

theorem foldlM_map_emb (hf : ∀ a b, P a → P b → f (emb a) (emb b) = .ok (emb (op a b)))
    (hP : ∀ a b, P a → P b → P (op a b)) :
    ∀ (l : List β) (a : β), P a → (∀ b ∈ l, P b) →
      (l.map emb).foldlM f (emb a) = .ok (emb (l.foldl op a))
  | [], _, _, _ => rfl
  | b :: l, a, ha, hl => by
    have hb := hl b (by simp)
    rw [List.map_cons, List.foldlM_cons, hf a b ha hb, List.foldl_cons]
    exact foldlM_map_emb hf hP l (op a b) (hP a b ha hb) fun c hc => hl c (by simp [hc])

/-- Folding a partition's result into an accumulator is folding its elements one by
one, for an operation associative on `P`. -/
theorem op_foldl (hP : ∀ a b, P a → P b → P (op a b))
    (hassoc : ∀ a b c, P a → P b → P c → op (op a b) c = op a (op b c)) :
    ∀ (l : List β) (a b : β), P a → P b → (∀ c ∈ l, P c) →
      op a (l.foldl op b) = l.foldl op (op a b)
  | [], _, _, _, _, _ => rfl
  | c :: l, a, b, ha, hb, hl => by
    have hc := hl c (by simp)
    rw [List.foldl_cons, List.foldl_cons, hassoc a b c ha hb hc,
      op_foldl hP hassoc l a (op b c) ha (hP b c hb hc) fun d hd => hl d (by simp [hd])]

theorem foldl_partFold (hP : ∀ a b, P a → P b → P (op a b))
    (hassoc : ∀ a b c, P a → P b → P c → op (op a b) c = op a (op b c)) :
    ∀ (L : List (List β)) (a : β), P a → (∀ b ∈ L.flatten, P b) →
      (L.filterMap (partFold op)).foldl op a = L.flatten.foldl op a
  | [], _, _, _ => rfl
  | [] :: L, a, ha, hL => foldl_partFold hP hassoc L a ha hL
  | (b :: bs) :: L, a, ha, hL => by
    have hb : P b := hL b (List.mem_cons_self _ _)
    have hbs : ∀ c ∈ bs, P c := fun c hc => hL c (List.mem_cons_of_mem _ (List.mem_append_left _ hc))
    have hrest : ∀ c ∈ L.flatten, P c := fun c hc =>
      hL c (List.mem_cons_of_mem _ (List.mem_append_right _ hc))
    show (bs.foldl op b :: L.filterMap (partFold op)).foldl op a = (b :: (bs ++ L.flatten)).foldl op a
    rw [List.foldl_cons, op_foldl hP hassoc bs a b ha hb hbs,
      foldl_partFold hP hassoc L _ (foldl_closed hP bs _ (hP a b ha hb) hbs) hrest,
      List.foldl_cons, List.foldl_append]

theorem flatten_map_partFold (op : β → β → β) (emb : β → α) :
    ∀ L : List (List β),
      (L.map fun q => (partFold op q).toList.map emb).flatten = (L.filterMap (partFold op)).map emb
  | [] => rfl
  | [] :: L => flatten_map_partFold op emb L
  | (b :: bs) :: L => by
    rw [List.map_cons, List.flatten_cons, flatten_map_partFold op emb L]
    rfl

theorem partFold_closed (hP : ∀ a b, P a → P b → P (op a b)) (L : List (List β))
    (hL : ∀ b ∈ L.flatten, P b) : ∀ r ∈ L.filterMap (partFold op), P r := by
  intro r hr
  obtain ⟨q, hq, hqr⟩ := List.mem_filterMap.mp hr
  cases q with
  | nil => cases hqr
  | cons b bs =>
    cases hqr
    exact foldl_closed hP bs b (hL b (List.mem_flatten.mpr ⟨_, hq, by simp⟩))
      fun c hc => hL c (List.mem_flatten.mpr ⟨_, hq, by simp [hc]⟩)

/-- The partition results of nonempty partitions fold to the fold of all elements. -/
theorem partFold_flatten (hP : ∀ a b, P a → P b → P (op a b))
    (hassoc : ∀ a b c, P a → P b → P c → op (op a b) c = op a (op b c)) :
    ∀ (L : List (List β)), (∀ b ∈ L.flatten, P b) → ∀ {b bs}, L.flatten = b :: bs →
      ∃ r rs, L.filterMap (partFold op) = r :: rs ∧ rs.foldl op r = bs.foldl op b
  | [], _, _, _, h => nomatch h
  | [] :: L, hL, _, _, h => partFold_flatten hP hassoc L hL h
  | (c :: cs) :: L, hL, b, bs, h => by
    obtain ⟨rfl, rfl⟩ := List.cons.inj h
    have hc : P c := hL c (List.mem_cons_self _ _)
    have hcs : ∀ d ∈ cs, P d := fun d hd => hL d (List.mem_cons_of_mem _ (List.mem_append_left _ hd))
    refine ⟨cs.foldl op c, L.filterMap (partFold op), rfl, ?_⟩
    show _ = (cs ++ L.flatten).foldl op c
    rw [foldl_partFold hP hassoc L _ (foldl_closed hP cs c hc hcs)
      fun d hd => hL d (List.mem_cons_of_mem _ (List.mem_append_right _ hd)), List.foldl_append]

/-- `reduce(f)` of computed partitions, with an `f` that is an associative operation on
the elements: the fold of all elements in `collect()` order, whatever the layout. -/
theorem reduce_ofParts_of_assoc
    (hf : ∀ a b, P a → P b → f (emb a) (emb b) = .ok (emb (op a b)))
    (hP : ∀ a b, P a → P b → P (op a b))
    (hassoc : ∀ a b c, P a → P b → P c → op (op a b) c = op a (op b c))
    {L : List (List β)} (hL : ∀ b ∈ L.flatten, P b) {b : β} {bs : List β}
    (hb : L.flatten = b :: bs) :
    (ofParts (L.map (List.map emb))).reduce f = .ok (emb (bs.foldl op b)) := by
  obtain ⟨r, rs, hrs, hfold⟩ := partFold_flatten hP hassoc L hL hb
  have hparts : ∀ g : List α → Except PyError (List α),
      (∀ q ∈ L, g (q.map emb) = .ok ((partFold op q).toList.map emb)) →
      (L.map (List.map emb)).mapM g = .ok (L.map fun q => (partFold op q).toList.map emb) :=
    fun g hg => mapM_ok_iff_forall₂.mpr (List.forall₂_map_left_iff.mpr
      (List.forall₂_map_right_iff.mpr (List.forall₂_same.mpr hg)))
  rw [reduce, mapPartitions_ofParts, collect_mk_map (hparts _ fun q hq => ?_)]
  · have hres := partFold_closed hP L hL
    simp only [flatten_map_partFold, hrs, List.map_cons]
    rw [foldlM_map_emb hf hP rs r (hres r (by simp [hrs])) fun c hc => hres c (by simp [hrs, hc]),
      hfold]
  · cases q with
    | nil => rfl
    | cons c cs =>
      simp only [List.map_cons]
      rw [foldlM_map_emb hf hP cs c (hL c (List.mem_flatten.mpr ⟨_, hq, by simp⟩))
        fun d hd => hL d (List.mem_flatten.mpr ⟨_, hq, by simp [hd]⟩)]
      rfl

/-- `reduce(f)` of computed partitions with no element raises. -/
theorem reduce_ofParts_nil (f : α → α → Except PyError α) {L : List (List α)} (hL : L.flatten = []) :
    (ofParts L).reduce f = .error ⟨.valueError, "Can not reduce() empty RDD"⟩ := by
  have hparts : ∀ g : List α → Except PyError (List α), (∀ p ∈ L, g p = .ok []) →
      L.mapM g = .ok (L.map fun _ => []) := fun g hg =>
    mapM_ok_iff_forall₂.mpr (List.forall₂_map_right_iff.mpr (List.forall₂_same.mpr hg))
  rw [reduce, mapPartitions_ofParts_eq (hparts _ fun p hp => by
    rw [List.flatten_eq_nil_iff.mp hL p hp]), collect_ofParts]
  simp
end Reduce

/-! ## Zipping computed RDDs -/

theorem zip_ofParts_eq (ps : List (List α)) (qs : List (List β)) :
    (ofParts ps).zip (ofParts qs) =
      if ps.length = qs.length then .ok ⟨List.zipWith zipPart ps qs⟩
      else .error ⟨.valueError, "Can only zip with RDD which has the same number of partitions"⟩ := by
  simp [zip, ofParts, numPartitions, List.zipWith_map, bind, Except.bind]

theorem zipWith_zipPart_aligned : ∀ {ps : List (List α)} {qs : List (List β)},
    ps.map List.length = qs.map List.length →
    List.zipWith zipPart ps qs = (List.zipWith List.zip ps qs).map .ok
  | [], [], _ => rfl
  | p :: ps, q :: qs, h => by
    simp only [List.map_cons, List.cons.injEq] at h
    simp [zipPart, h.1, zipWith_zipPart_aligned h.2]
  | [], _ :: _, h => by simp at h
  | _ :: _, [], h => by simp at h

/-- Two partitions of different lengths do not zip: the task fails, or its reader. -/
theorem zipPart_of_ne {a : List α} {b : List β} (h : a.length ≠ b.length) :
    ∃ e, zipPart a b = .error e := by
  unfold zipPart
  rw [if_neg h]
  split_ifs <;> exact ⟨_, rfl⟩

theorem zipWith_zipPart_misaligned : ∀ {ps : List (List α)} {qs : List (List β)},
    ps.length = qs.length → ps.map List.length ≠ qs.map List.length →
    ∃ e, (List.zipWith zipPart ps qs).mapM id = .error e
  | [], [], _, h => absurd rfl h
  | p :: ps, q :: qs, hk, h => by
    simp only [List.length_cons, Nat.add_right_cancel_iff] at hk
    simp only [List.zipWith_cons_cons, List.mapM_cons, id]
    by_cases hpq : p.length = q.length
    · have hrest : ps.map List.length ≠ qs.map List.length := fun hr => h (by simp [hpq, hr])
      obtain ⟨e, he⟩ := zipWith_zipPart_misaligned hk hrest
      refine ⟨e, ?_⟩
      rw [he]
      simp [zipPart, hpq, bind, Except.bind]
    · obtain ⟨e, he⟩ := zipPart_of_ne hpq
      exact ⟨e, by simp [he, bind, Except.bind]⟩
  | [], _ :: _, hk, _ => by simp at hk
  | _ :: _, [], hk, _ => by simp at hk

/-- Computed partitions of one layout zip position by position. -/
theorem zip_ofParts_aligned {ps : List (List α)} {qs : List (List β)}
    (h : ps.map List.length = qs.map List.length) :
    (ofParts ps).zip (ofParts qs) = .ok (ofParts (List.zipWith List.zip ps qs)) := by
  have hk : ps.length = qs.length := by simpa using congrArg List.length h
  rw [zip_ofParts_eq, if_pos hk, zipWith_zipPart_aligned h]
  rfl

/-- Computed partitions of different layouts but one partition count zip into an RDD that
fails where it is computed. -/
theorem zip_ofParts_misaligned {ps : List (List α)} {qs : List (List β)}
    (hk : ps.length = qs.length) (h : ps.map List.length ≠ qs.map List.length) :
    ∃ z e, (ofParts ps).zip (ofParts qs) = .ok z ∧ z.computed = .error e := by
  obtain ⟨e, he⟩ := zipWith_zipPart_misaligned hk h
  exact ⟨_, e, by rw [zip_ofParts_eq, if_pos hk], he⟩

/-! ## Hash partitioning computed records -/

/-- Hash partitioning of computed records that are the images of source items, every key
hashing: partition `b` holds, in some order, the records of the items whose key goes to
`b`. -/
theorem partitionBy_ofParts {γ : Type} (sch : Scheduler) {hash : κ → Except PyError Int}
    {H : κ → Int} {ps : List (List (κ × β))} {src : List γ} {g : γ → κ × β}
    (hl : ps.flatten = src.map g)
    (hh : ∀ a ∈ src, hash (g a).1 = .ok (H (g a).1)) (n : Nat) :
    ∃ qs, partitionBy sch hash n (ofParts ps) = ofParts qs ∧ qs.length = n ∧
      ∀ b (hb : b < qs.length), ∃ sel : List γ, qs[b] = sel.map g ∧
        sel.Perm (src.filter fun a => bucket (H (g a).1) n = b) := by
  have hmap : (src.map g).mapM (fun p => hash p.1) = .ok (src.map fun a => H (g a).1) :=
    mapM_ok_iff_forall₂.mpr (List.forall₂_map_left_iff.mpr (List.forall₂_map_right_iff.mpr
      (List.forall₂_same.mpr hh)))
  let sel : Nat → List γ := fun b => (sch.fetch b ((List.range src.length).filter fun i =>
    bucket ((src.map fun a => H (g a).1).getD i 0) n = b)).filterMap (src[·]?)
  refine ⟨(List.range n).map fun b => (sel b).map g, ?_, by simp, fun b hb => ⟨sel b, by simp, ?_⟩⟩
  · rw [partitionBy, computed_ofParts]
    simp only [hl, hmap, ofParts, List.map_map, List.length_map]
    congr 1
    refine List.map_congr_left fun b _ => ?_
    simp [sel, List.map_filterMap, Function.comp_def]
  · refine ((sch.fetch_perm b _).filterMap _).trans (List.Perm.of_eq ?_)
    exact filterMap_getElem?_range_filter src fun i hi => by simp [hi]

end Rdd

end OrcaXShards
