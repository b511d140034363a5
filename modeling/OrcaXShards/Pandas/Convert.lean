import OrcaXShards.Numpy.Array

/-!
# The column inference of `pd.DataFrame(data=rows)`

`merge_rows` and `merge` rebuild a frame with `pd.DataFrame(data=rows, columns=...)` before
`astype`.  pandas 1.x builds each column as an array of objects and runs it through
`lib.maybe_convert_objects`, which scans the column once and returns an int64, uint64,
float64 or bool array where every value allows one, and the objects otherwise.

The scan is `Seen.see` folded over the column; the array it picks is `Conversion.of`.
Only two outcomes change a value.  A column of integers and floats becomes float64, each
integer the double nearest to it; a column of `None` and numbers becomes float64 with NaN,
which the model does not represent.  Neither happens to a column in which no two cells mix
an integer with a float or `None` with a number (`Conversion.of_unmixed`), and a column of
one frame whose cells fit its dtype has no such pair unless its dtype is `object`.
-/

namespace OrcaXShards

/-- What `maybe_convert_objects` records of a column as it scans it: `None`, integers,
booleans and floats, and among the integers those below zero and those beyond int64. -/
structure Seen where
  null : Bool
  int : Bool
  bool : Bool
  float : Bool
  sint : Bool
  uint : Bool
  deriving DecidableEq, Repr

/-- Nothing seen yet. -/
def Seen.empty : Seen := ⟨false, false, false, false, false, false⟩

/-- One iteration of the loop of `maybe_convert_objects`: the cell recorded, or `none` where
the loop breaks at a value that only an array of objects holds.  Those are a string, a list
and, while no `None` has come, an integer beyond 64 bits or an integer beyond int64 seen
together with a negative one. -/
def Seen.see (s : Seen) : Scalar → Option Seen
  | .none => some { s with null := true }
  | .bool _ => some { s with bool := true }
  | .float _ => some { s with float := true }
  | .int n =>
    if s.null then some { s with int := true }
    else
      let sint := s.sint || decide (-2 ^ 63 ≤ n ∧ n < 0)
      let uint := s.uint || decide (2 ^ 63 ≤ n ∧ n < 2 ^ 64)
      if (sint && uint) || decide (n < -2 ^ 63 ∨ 2 ^ 64 ≤ n) then none
      else some { s with int := true, sint := sint, uint := uint }
  | .str _ => none
  | .list _ => none

/-- The array `maybe_convert_objects` returns for a column (with `safe=False`). -/
inductive Conversion
  /-- the objects themselves, or an int64 or bool array of the same values -/
  | keep
  /-- a uint64 array -/
  | uints
  /-- a float64 array, each integer the double nearest to it -/
  | floats
  /-- a float64 array with NaN for `None`, which the model does not represent -/
  | nan
  deriving DecidableEq, Repr

/-- The array `maybe_convert_objects` picks from what its scan of the column saw: with a
`None`, float64 if a number came and no boolean, the objects otherwise; without one, the
objects beside a boolean, float64 if a float came, uint64 or int64 if only integers came. -/
def Conversion.of (cells : List Scalar) : Conversion :=
  match cells.foldlM Seen.see Seen.empty with
  | none => .keep
  | some s =>
    if s.null then
      if !s.bool && (s.float || s.int) then .nan else .keep
    else if !s.bool && s.float then .floats
    else if !s.bool && s.int && s.uint then .uints
    else .keep

/-- A cell of a column converted as `cv`, as the `astype(d)` that follows reads it: a
float64 array holds an integer as the double nearest to it, and a uint64 array cast to
int64 wraps modulo `2 ^ 64`.  Any other array holds the value itself. -/
def Conversion.apply : Conversion → DType → Scalar → Scalar
  | .floats, _, .int n => .float (roundDouble n)
  | .uints, .int64, .int n => .int ((n + 2 ^ 63) % 2 ^ 64 - 2 ^ 63)
  | _, _, c => c

/-- Two cells that `maybe_convert_objects` changes when they meet in one column: an integer
and a float (the integer becomes a float), or `None` and a number (float64 with NaN). -/
def Scalar.mixes : Scalar → Scalar → Bool
  | .int _, .float _ | .float _, .int _ => true
  | .none, .int _ | .none, .float _ | .int _, .none | .float _, .none => true
  | _, _ => false

/-! ## What the scan saw -/

/-- A flag that the scan reports was set by a cell of the column, when each iteration sets
it only on such a cell. -/
theorem Seen.foldlM_see_flag {f : Seen → Bool} {p : Scalar → Prop}
    (hstep : ∀ s c s', s.see c = some s' → f s' = true → f s = true ∨ p c) :
    ∀ {cs : List Scalar} {s s' : Seen}, cs.foldlM Seen.see s = some s' → f s' = true →
      f s = true ∨ ∃ c ∈ cs, p c
  | [], _, _, h, hf => by
    cases h
    exact .inl hf
  | c :: cs, s, _, h, hf => by
    rw [List.foldlM_cons] at h
    obtain ⟨t, ht, h'⟩ := Option.bind_eq_some.mp h
    rcases foldlM_see_flag hstep h' hf with ht' | ⟨c', hc', hp⟩
    · exact (hstep s c t ht ht').imp id fun hp => ⟨c, List.mem_cons_self _ _, hp⟩
    · exact .inr ⟨c', List.mem_cons_of_mem _ hc', hp⟩

/-- Each iteration sets a flag only on a cell of its kind, or keeps it. -/
theorem Seen.see_flags {s s' : Seen} {c : Scalar} (h : s.see c = some s') :
    (s'.null = true → s.null = true ∨ c = .none) ∧
    (s'.int = true → s.int = true ∨ ∃ n, c = .int n) ∧
    (s'.float = true → s.float = true ∨ ∃ x, c = .float x) := by
  cases c <;> simp only [Seen.see, Option.some.injEq, reduceCtorEq] at h
  case int n =>
    split at h
    · cases h
      simp
    · split at h
      · cases h
      · cases h
        simp
  all_goals (cases h; simp_all)

/-- A column whose scan saw `None` holds `None`. -/
theorem Seen.null_mem {cs : List Scalar} {s : Seen} (h : cs.foldlM Seen.see .empty = some s)
    (hs : s.null = true) : Scalar.none ∈ cs := by
  obtain h' | ⟨c, hc, rfl⟩ := foldlM_see_flag (f := Seen.null) (p := (· = .none))
    (fun _ _ _ h => (Seen.see_flags h).1) h hs
  · cases h'
  · exact hc

/-- A column whose scan saw an integer holds one. -/
theorem Seen.int_mem {cs : List Scalar} {s : Seen} (h : cs.foldlM Seen.see .empty = some s)
    (hs : s.int = true) : ∃ n, Scalar.int n ∈ cs := by
  obtain h' | ⟨c, hc, n, rfl⟩ := foldlM_see_flag (f := Seen.int) (p := fun c => ∃ n, c = .int n)
    (fun _ _ _ h => (Seen.see_flags h).2.1) h hs
  · cases h'
  · exact ⟨n, hc⟩

/-- A column whose scan saw a float holds one. -/
theorem Seen.float_mem {cs : List Scalar} {s : Seen} (h : cs.foldlM Seen.see .empty = some s)
    (hs : s.float = true) : ∃ x, Scalar.float x ∈ cs := by
  obtain h' | ⟨c, hc, x, rfl⟩ := foldlM_see_flag (f := Seen.float)
    (p := fun c => ∃ x, c = .float x) (fun _ _ _ h => (Seen.see_flags h).2.2) h hs
  · cases h'
  · exact ⟨x, hc⟩

/-! ## Columns the inference leaves as they are -/

/-- Only an integer can move. -/
theorem Conversion.apply_of_ne_int {c : Scalar} (hc : ∀ n, c ≠ .int n) (cv : Conversion)
    (d : DType) : cv.apply d c = c := by
  cases c <;> first | exact absurd rfl (hc _) | cases cv <;> cases d <;> rfl

/-- A uint64 array cast to int64 gives back an integer that int64 holds. -/
theorem Conversion.apply_uints_int {n : Int} {d : DType}
    (hn : d = .int64 → (Scalar.int n).fits .int64 = true) :
    Conversion.uints.apply d (.int n) = .int n := by
  cases d
  case int64 =>
    have := hn rfl
    simp only [Scalar.fits, decide_eq_true_eq] at this
    simp only [Conversion.apply, Scalar.int.injEq]
    rw [Int.emod_eq_of_lt (by omega) (by omega)]
    omega
  all_goals rfl

/-- A column in which no two cells mix an integer with a float or `None` with a number,
and whose integers int64 holds if it is cast to int64, is not turned into NaN, and every
cell of it reaches `astype` as it is. -/
theorem Conversion.of_unmixed {d : DType} {col : List Scalar}
    (hmix : ∀ a ∈ col, ∀ b ∈ col, a.mixes b = false)
    (hint : d = .int64 → ∀ n, Scalar.int n ∈ col → (Scalar.int n).fits .int64 = true) :
    Conversion.of col ≠ .nan ∧ ∀ c ∈ col, (Conversion.of col).apply d c = c := by
  unfold Conversion.of
  split
  · exact ⟨by decide, fun c _ => rfl⟩
  · rename_i s hs
    by_cases hnull : s.null = true
    · have hn := Seen.null_mem hs hnull
      have hfi : s.float = false ∧ s.int = false := by
        refine ⟨Bool.eq_false_iff.mpr fun h => ?_, Bool.eq_false_iff.mpr fun h => ?_⟩
        · obtain ⟨x, hx⟩ := Seen.float_mem hs h
          simpa [Scalar.mixes] using hmix _ hn _ hx
        · obtain ⟨m, hm⟩ := Seen.int_mem hs h
          simpa [Scalar.mixes] using hmix _ hn _ hm
      simp only [hnull, hfi, Bool.or_false, Bool.and_false, if_true, Bool.false_eq_true,
        if_false]
      exact ⟨by decide, fun c _ => rfl⟩
    · simp only [hnull, Bool.false_eq_true, if_false]
      split
      · rename_i hfl
        obtain ⟨x, hx⟩ := Seen.float_mem hs (Bool.and_eq_true _ _ ▸ hfl).2
        refine ⟨by decide, fun c hc => Conversion.apply_of_ne_int ?_ _ _⟩
        rintro m rfl
        simpa [Scalar.mixes] using hmix _ hc _ hx
      · split
        · refine ⟨by decide, fun c hc => ?_⟩
          cases c with
          | int m => exact Conversion.apply_uints_int fun hd => hint hd m hc
          | _ => exact Conversion.apply_of_ne_int (by simp) _ _
        · exact ⟨by decide, fun c _ => rfl⟩

end OrcaXShards
