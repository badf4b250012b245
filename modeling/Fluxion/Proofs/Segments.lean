import Mathlib
import Fluxion.Plot.Series
import Fluxion.Proofs.Exact
import Fluxion.Scalar.Binary64

/-!
# Segments of sampled curves

A curve is drawn in segments: the samples between two gaps belong together, and nothing else does.
`Split` says which lists of runs a list of samples with gaps falls into, by the sample that is met
first.  Along it the samples are kept and their order is (`Split.flatten_eq`), no run is empty
(`Split.ne_nil`), and a run of numbered samples is an interval that ends in front of a gap
(`Split.endsAtGap`).  Where samples are numbered, two of them are in the same segment exactly if
there is no gap between them (`Series.Numbered`).

The ordinates of the segments are the values that the range is made from
(`Series.values_eq`).  Over the exact numbers the range has room above and below every one of them.
-/

namespace Fluxion.Plot

/-! ### Runs -/

section Runs

variable {α β : Type}

/-- Samples with gaps between them, and the runs that they fall into.  The
relation says what runs are without saying how to find them. -/
inductive Split : List (Option α) → List (List α) → Prop
  | nil : Split [] []
  | gap {rest : List (Option α)} {segments : List (List α)} :
      Split rest segments → Split (none :: rest) segments
  /-- a sample in front of a gap, or at the end -/
  | alone {a : α} {rest : List (Option α)} {segments : List (List α)} :
      (∀ b, rest.head? ≠ some (some b)) → Split rest segments →
      Split (some a :: rest) ([a] :: segments)
  | beside {a b : α} {rest : List (Option α)} {run : List α} {later : List (List α)} :
      Split (some b :: rest) ((b :: run) :: later) →
      Split (some a :: some b :: rest) ((a :: b :: run) :: later)

variable {a : α} {samples rest : List (Option α)} {segments : List (List α)}

/-- The run of the first sample starts with it. -/
theorem Split.exists_head (split : Split (some a :: rest) segments) :
    ∃ run later, segments = (a :: run) :: later := by
  cases split with
  | alone gap split => exact ⟨[], _, rfl⟩
  | beside split => exact ⟨_, _, rfl⟩

/-- A present value in front of another one belongs to its run. -/
theorem runs_beside {a b : α} {rest : List (Option α)} {run : List α} {later : List (List α)}
    (cut : runs (some b :: rest) = run :: later) :
    runs (some a :: some b :: rest) = (a :: run) :: later := by
  rw [runs.eq_def]
  simp only [cut]

/-- Cutting at the gaps gives runs that make up the samples again, by
induction on the samples. -/
theorem split_runs (samples : List (Option α)) : Split samples (runs samples) := by
  induction samples with
  | nil => exact .nil
  | cons sample rest inductionHypothesis =>
    cases sample with
    | none => exact .gap inductionHypothesis
    | some a =>
      rcases rest with _ | ⟨_ | b, rest⟩
      · exact .alone nofun .nil
      · exact .alone nofun inductionHypothesis
      · obtain ⟨run, later, cut⟩ := inductionHypothesis.exists_head
        rw [runs_beside cut]
        exact .beside (cut ▸ inductionHypothesis)

/-- The runs are the only way to cut the samples at their gaps. -/
theorem Split.eq_runs (split : Split samples segments) : segments = runs samples := by
  induction split with
  | nil => rfl
  | gap split same => exact same
  | @alone a rest segments gap split same =>
    subst same
    rcases rest with _ | ⟨_ | b, rest⟩
    · rfl
    · rfl
    · exact absurd rfl (gap b)
  | beside split same => exact (runs_beside same.symm).symm

/-- Nothing is lost, and nothing changes its place. -/
theorem Split.flatten_eq (split : Split samples segments) :
    segments.flatten = samples.filterMap id := by
  induction split with
  | nil => rfl
  | gap split same => exact same
  | alone gap split same => exact congrArg (_ :: ·) same
  | beside split same => exact congrArg (_ :: ·) same

theorem Split.ne_nil (split : Split samples segments) : [] ∉ segments := by
  induction split with
  | nil => exact List.not_mem_nil
  | gap split absent => exact absent
  | alone gap split absent => simpa using absent
  | beside split absent => simpa using absent

theorem Split.map (f : α → β) (split : Split samples segments) :
    Split (samples.map (Option.map f)) (segments.map (List.map f)) := by
  induction split with
  | nil => exact .nil
  | gap split mapped => exact .gap mapped
  | @alone a rest segments gap split mapped =>
    refine .alone (fun b present => ?_) mapped
    rw [List.head?_map] at present
    obtain ⟨_ | b, first, -⟩ := Option.map_eq_some_iff.1 present
    · cases present.symm.trans (congrArg (Option.map (Option.map f)) first)
    · exact gap b first
  | beside split mapped => exact .beside mapped

theorem runs_map (f : α → β) (samples : List (Option α)) :
    runs (samples.map (Option.map f)) = (runs samples).map (List.map f) :=
  ((split_runs samples).map f).eq_runs.symm

section Numbers

variable {number : α → Nat} {sample : Option α} {n : Nat}

/-- Behind the first sample the numbers go on. -/
theorem numbered_behind
    (numbered : ∀ i a, (sample :: rest)[i]? = some (some a) → number a = n + i) (i : Nat) (a : α)
    (here : rest[i]? = some (some a)) : number a = n + 1 + i := by
  rw [numbered (i + 1) a here]
  omega

/-- The run is an interval of numbers from `n` on, and behind it is a
gap or the end. -/
def EndsAtGap (number : α → Nat) (n : Nat) (samples : List (Option α)) (run : List α) : Prop :=
  ∃ first length, run.map number = List.range' (n + first) length ∧
    ∀ a, samples[first + length]? ≠ some (some a)

/-- A run that ends at a gap does so behind one sample more. -/
theorem EndsAtGap.behind {run : List α} (ends : EndsAtGap number (n + 1) rest run) :
    EndsAtGap number n (sample :: rest) run := by
  obtain ⟨first, length, places, gap⟩ := ends
  refine ⟨first + 1, length, ?_, ?_⟩
  · rw [places, Nat.add_right_comm, Nat.add_assoc]
  · rwa [Nat.add_right_comm]

/-- Where samples are numbered one after the other, a run is an interval, and
behind it is a gap or the end. -/
theorem Split.endsAtGap (split : Split samples segments)
    (numbered : ∀ i a, samples[i]? = some (some a) → number a = n + i) :
    ∀ run ∈ segments, EndsAtGap number n samples run := by
  induction split generalizing n with
  | nil => exact nofun
  | gap split intervals =>
    intro run member
    exact (intervals (numbered_behind numbered) run member).behind
  | @alone a rest segments gap split intervals =>
    refine List.forall_mem_cons.2 ⟨⟨0, 1, ?_, ?_⟩, fun run member =>
      (intervals (numbered_behind numbered) run member).behind⟩
    · rw [List.map_singleton, numbered 0 a rfl]
      rfl
    · intro b present
      exact gap b (List.head?_eq_getElem?.trans present)
  | @beside a b rest run later split intervals =>
    obtain ⟨⟨first, length, places, gap⟩, others⟩ :=
      List.forall_mem_cons.1 (intervals (numbered_behind numbered))
    refine List.forall_mem_cons.2 ⟨?_, fun run member => (others run member).behind⟩
    -- the run that is continued starts at the next number
    rcases length with _ | length
    · cases places
    · rw [List.range'_succ, List.map_cons, List.cons.injEq, numbered 1 b rfl] at places
      obtain rfl : first = 0 := by omega
      refine ⟨0, length + 2, ?_, ?_⟩
      · rw [List.map_cons, List.map_cons, numbered 0 a rfl, numbered 1 b rfl, places.2]
        rfl
      · rwa [Nat.zero_add] at gap ⊢

end Numbers

end Runs

/-! ### Segments -/

namespace Series

section Points

variable {K : Type} [Scalar K] {series : Series K}

/-- The point of a sample, if it can be drawn. -/
def point? (series : Series K) (i : Nat) : Option (K × K) := do
  let x ← series.xs[i]?
  let y ← series.ys[i]?
  (drawable? y).map (x, ·)

theorem lt_length_of_point? {i : Nat} {point : K × K} (present : series.point? i = some point) :
    i < series.xs.length := by
  obtain ⟨x, here, -⟩ := Option.bind_eq_some_iff.1 present
  exact (List.getElem?_eq_some_iff.1 here).1

/-- An aligned curve has the points of its abscissae for samples. -/
theorem samples_eq (aligned : series.ys.length = series.xs.length) :
    series.samples = (List.range series.xs.length).map series.point? := by
  apply List.ext_getElem
  · rw [samples, List.length_zipWith, List.length_map, List.length_range, aligned, Nat.min_self]
  · intro i within inside
    rw [List.length_map, List.length_range] at inside
    rw [List.getElem_map, List.getElem_range, point?, List.getElem?_eq_getElem inside,
      List.getElem?_eq_getElem (aligned ▸ inside)]
    exact List.getElem_zipWith

/-- The samples with their numbers, by which a segment can tell where it
comes from. -/
def numbered (series : Series K) : List (Option (Nat × K × K)) :=
  (List.range series.xs.length).map fun i => (series.point? i).map (i, ·)

theorem fst_eq_of_numbered {i : Nat} {point : Nat × K × K}
    (here : series.numbered[i]? = some (some point)) : point.1 = 0 + i := by
  rw [numbered, List.getElem?_map] at here
  obtain ⟨k, there, numbered⟩ := Option.map_eq_some_iff.1 here
  obtain ⟨unnumbered, -, rfl⟩ := Option.map_eq_some_iff.1 numbered
  obtain ⟨-, rfl⟩ := List.getElem?_eq_some_iff.1 there
  rw [List.getElem_range, Nat.zero_add]

/-- A present point is found at its place, under its number. -/
theorem numbered_getElem? {i : Nat} {point : K × K} (present : series.point? i = some point) :
    series.numbered[i]? = some (some (i, point)) := by
  rw [numbered, List.getElem?_map, List.getElem?_range (lt_length_of_point? present),
    Option.map_some, present, Option.map_some]

/-- The segments, in which each point has the number of its sample: taken
together they are the points that can be drawn, from the first sample to the
last, and two samples are in the same segment exactly if there is no gap
between them. -/
structure Numbered (series : Series K) (segments : List (List (Nat × K × K))) : Prop where
  points : segments.map (List.map Prod.snd) = series.segments
  flatten_eq : segments.flatten =
    (List.range series.xs.length).filterMap fun i => (series.point? i).map (i, ·)
  together : ∀ i j, i ≤ j →
    ((∃ segment ∈ segments, i ∈ segment.map Prod.fst ∧ j ∈ segment.map Prod.fst) ↔
      ∀ k, i ≤ k → k ≤ j → ∃ point, series.point? k = some point)

/-- All runs together are the present points in order, gaps left out. -/
theorem flatten_runs_numbered (series : Series K) :
    (runs series.numbered).flatten =
      (List.range series.xs.length).filterMap fun i => (series.point? i).map (i, ·) := by
  rw [(split_runs series.numbered).flatten_eq, numbered, List.filterMap_map]
  rfl

/-- A number is in a segment if its sample can be drawn. -/
theorem exists_segment_iff {i : Nat} :
    (∃ segment ∈ runs series.numbered, i ∈ segment.map Prod.fst) ↔
      ∃ point, series.point? i = some point := by
  have flat (numberedPoint : Nat × K × K) :
      (∃ segment ∈ runs series.numbered, numberedPoint ∈ segment) ↔
        ∃ k < series.xs.length, (series.point? k).map (k, ·) = some numberedPoint := by
    rw [← List.mem_flatten, flatten_runs_numbered, List.mem_filterMap]
    simp only [List.mem_range]
  constructor
  · rintro ⟨segment, member, place⟩
    obtain ⟨⟨_, point⟩, inside, rfl⟩ := List.mem_map.1 place
    obtain ⟨k, -, here⟩ := (flat _).1 ⟨segment, member, inside⟩
    obtain ⟨point', present, same⟩ := Option.map_eq_some_iff.1 here
    cases same
    exact ⟨_, present⟩
  · rintro ⟨point, present⟩
    obtain ⟨segment, member, inside⟩ :=
      (flat (i, point)).2 ⟨i, lt_length_of_point? present, by rw [present]; rfl⟩
    exact ⟨segment, member, List.mem_map.2 ⟨_, inside, rfl⟩⟩

/-- The runs of an aligned curve carry the numbers of their points. -/
theorem numbered_runs (aligned : series.ys.length = series.xs.length) :
    series.Numbered (runs series.numbered) where
  points := by
    rw [← runs_map, segments, samples_eq aligned, numbered, List.map_map]
    congr 1
    refine List.map_congr_left fun i _ => ?_
    rw [Function.comp_apply, Option.map_map]
    exact Option.map_id'
  flatten_eq := flatten_runs_numbered series
  together i j le := by
    have runs := (split_runs series.numbered).endsAtGap (n := 0) fun _ _ => fst_eq_of_numbered
    constructor
    · rintro ⟨segment, member, first, last⟩ k above below
      obtain ⟨start, length, interval, -⟩ := runs segment member
      rw [interval, List.mem_range'_1] at first last
      refine exists_segment_iff.1 ⟨segment, member, ?_⟩
      rw [interval, List.mem_range'_1]
      omega
    · intro present
      obtain ⟨segment, member, first⟩ := exists_segment_iff.2 (present i le_rfl le)
      refine ⟨segment, member, first, ?_⟩
      obtain ⟨start, length, interval, gap⟩ := runs segment member
      rw [interval, List.mem_range'_1] at first ⊢
      refine ⟨by omega, ?_⟩
      -- were the run at its end before `j`, there would be a gap
      by_contra beyond
      obtain ⟨point, here⟩ := present (start + length) (by omega) (by omega)
      exact gap _ (numbered_getElem? here)

/-- Taken together the segments are the points whose ordinates can be drawn. -/
theorem flatten_segments (series : Series K) :
    series.segments.flatten =
      (series.xs.zip series.ys).filterMap fun (x, y) => (drawable? y).map (x, ·) := by
  rw [segments, (split_runs series.samples).flatten_eq, samples, ← List.map_uncurry_zip_eq_zipWith,
    List.filterMap_map]
  rfl

/-- The drawable values are the ordinates of the segments. -/
theorem values_eq (aligned : series.ys.length = series.xs.length) :
    series.values = series.segments.flatten.map Prod.snd := by
  have ordinate (sample : K × Option K) :
      ((drawable? sample.2).map (sample.1, ·)).map Prod.snd = drawable? sample.2 := by
    rw [Option.map_map]
    exact Option.map_id'
  have ys : (series.xs.zip series.ys).map Prod.snd = series.ys := List.map_snd_zip aligned.le
  rw [values, flatten_segments, List.map_filterMap]
  conv_lhs => rw [← ys, List.filterMap_map]
  exact List.filterMap_congr fun sample _ => (ordinate sample).symm

/-- The number of drawable samples is that of the points in the segments. -/
theorem defined_eq (aligned : series.ys.length = series.xs.length) :
    series.defined = (series.segments.map List.length).sum := by
  rw [defined, values_eq aligned, List.length_map, List.length_flatten]

theorem extent?_eq_none_iff {values : List K} : extent? values = none ↔ values = [] := by
  cases values with
  | nil => exact iff_of_true rfl rfl
  | cons y rest => exact iff_of_false nofun nofun

/-- There is no range exactly if there is nothing to draw. -/
theorem range?_eq_none_iff (aligned : series.ys.length = series.xs.length) :
    series.range? = none ↔ series.segments = [] := by
  rw [range?, Option.map_eq_none_iff, extent?_eq_none_iff, values_eq aligned, List.map_eq_nil_iff,
    List.flatten_eq_nil_iff]
  constructor
  · intro allEmpty
    refine List.eq_nil_iff_forall_not_mem.2 fun segment member => ?_
    exact (split_runs series.samples).ne_nil (allEmpty segment member ▸ member)
  · intro undrawn
    rw [undrawn]
    exact nofun

theorem isFinite_of_mem_values {y : K} (member : y ∈ series.values) : Scalar.isFinite y = true := by
  obtain ⟨sample, -, drawn⟩ := List.mem_filterMap.1 member
  exact (Option.filter_eq_some_iff.1 drawn).2

end Points

/-! ### Ranges of exact numbers -/

section Exact

variable {series : Series Exact} {values : List Exact}

theorem smaller_real (a b : ℝ) : Scalar.smaller (Exact.real a) (.real b) = .real (min a b) := by
  rw [Scalar.smaller]
  split
  · next less =>
    obtain ⟨_, _, ⟨⟩, ⟨⟩, below⟩ := Exact.less_iff.1 less
    rw [min_eq_right below.le]
  · next less =>
    rw [min_eq_left (not_lt.1 fun below => less (Exact.less_iff.2 ⟨b, a, rfl, rfl, below⟩))]

theorem larger_real (a b : ℝ) : Scalar.larger (Exact.real a) (.real b) = .real (max a b) := by
  rw [Scalar.larger]
  split
  · next less =>
    obtain ⟨_, _, ⟨⟩, ⟨⟩, below⟩ := Exact.less_iff.1 less
    rw [max_eq_right below.le]
  · next less =>
    rw [max_eq_left (not_lt.1 fun below => less (Exact.less_iff.2 ⟨a, b, rfl, rfl, below⟩))]

/-- The least and the greatest so far leave room for all that was met. -/
theorem exists_bounds_of_foldl (real : ∀ value ∈ values, ∃ y, value = .real y) (low high : ℝ) :
    ∃ least greatest : ℝ,
      values.foldl (fun (low, high) y => (Scalar.smaller low y, Scalar.larger high y))
        (.real low, .real high) = (Exact.real least, .real greatest) ∧
      least ≤ low ∧ high ≤ greatest ∧ ∀ y, Exact.real y ∈ values → least ≤ y ∧ y ≤ greatest := by
  induction values generalizing low high with
  | nil => exact ⟨low, high, rfl, le_rfl, le_rfl, nofun⟩
  | cons value rest inductionHypothesis =>
    obtain ⟨⟨y, rfl⟩, others⟩ := List.forall_mem_cons.1 real
    obtain ⟨least, greatest, folded, below, above, within⟩ :=
      inductionHypothesis others (min low y) (max high y)
    refine ⟨least, greatest, ?_, below.trans (min_le_left _ _), (le_max_left _ _).trans above, ?_⟩
    · rw [← folded, ← smaller_real, ← larger_real]
      rfl
    · intro z member
      rcases List.mem_cons.1 member with same | member
      · cases same
        exact ⟨below.trans (min_le_right _ _), (le_max_right _ _).trans above⟩
      · exact within z member

/-- The extent of some real numbers bounds them all, by induction on the numbers. -/
theorem exists_extent (real : ∀ value ∈ values, ∃ y, value = .real y) (nonempty : values ≠ []) :
    ∃ low high : ℝ, extent? values = some (.real low, .real high) ∧
      ∀ y, Exact.real y ∈ values → low ≤ y ∧ y ≤ high := by
  rcases values with _ | ⟨value, rest⟩
  · exact absurd rfl nonempty
  · obtain ⟨⟨y, rfl⟩, others⟩ := List.forall_mem_cons.1 real
    obtain ⟨low, high, folded, below, above, within⟩ := exists_bounds_of_foldl others y y
    refine ⟨low, high, congrArg some folded, fun z member => ?_⟩
    rcases List.mem_cons.1 member with same | member
    · cases same
      exact ⟨below, above⟩
    · exact within z member

theorem margin_exact : (margin : Exact) = .real (1 / 20) :=
  Exact.div_eq_real.2 ⟨1, 20, by simp, by simp, by norm_num, rfl⟩

/-- The range has room above and below every ordinate that is drawn. -/
theorem exists_range (nonempty : series.values ≠ []) :
    ∃ low high : ℝ, series.range? = some (.real low, .real high) ∧
      ∀ y, Exact.real y ∈ series.values → low < y ∧ y < high := by
  obtain ⟨least, greatest, extent, within⟩ :=
    exists_extent (fun value member => Exact.isFinite_iff.1 (isFinite_of_mem_values member))
      nonempty
  have one : (Scalar.ofInt 1 : Exact) = .real 1 := by rw [Exact.ofInt_eq, Int.cast_one]
  rw [range?, extent, Option.map_some]
  by_cases level : least = greatest
  · refine ⟨least - 1, greatest + 1, ?_, ?_⟩
    · dsimp only
      rw [if_pos (Exact.beq_iff.2 ⟨least, rfl, congrArg Exact.real level.symm⟩), one]
      rfl
    · intro y member
      obtain ⟨below, above⟩ := within y member
      constructor <;> linarith
  · refine ⟨least - 1 / 20 * (greatest - least), greatest + 1 / 20 * (greatest - least), ?_, ?_⟩
    · dsimp only
      rw [if_neg, margin_exact]
      · rfl
      · intro same
        obtain ⟨_, ⟨⟩, other⟩ := Exact.beq_iff.1 same
        exact level (Exact.real.inj other).symm
    · intro y member
      obtain ⟨below, above⟩ := within y member
      have height : least < greatest := lt_of_le_of_ne (below.trans above) level
      constructor <;> linarith

end Exact

/-- The segments of a curve are its maximal runs of samples that can be drawn.
Taken together they are all these samples, in order and each once; none is
empty, two samples are in the same one exactly if every sample between them
can be drawn, and as many samples are defined as are in segments.  There is a
range exactly if there are segments, and over the exact numbers every ordinate
that is drawn lies strictly inside it. -/
theorem segments_are_maximal_runs :
    (∀ {K : Type} [Scalar K] (series : Series K), series.ys.length = series.xs.length →
      series.segments.flatten =
        (series.xs.zip series.ys).filterMap (fun (x, y) => (drawable? y).map (x, ·)) ∧
      [] ∉ series.segments ∧
      (∃ numbered, series.Numbered numbered) ∧
      series.defined = (series.segments.map List.length).sum ∧
      (series.range? = none ↔ series.segments = [])) ∧
    ∀ series : Series Exact, series.ys.length = series.xs.length → series.segments ≠ [] →
      ∃ low high : ℝ, series.range? = some (.real low, .real high) ∧
        ∀ segment ∈ series.segments, ∀ x y, (x, y) ∈ segment →
          ∃ v : ℝ, y = .real v ∧ low < v ∧ v < high := by
  constructor
  · intro K _ series aligned
    exact ⟨flatten_segments series, (split_runs _).ne_nil, ⟨_, numbered_runs aligned⟩,
      defined_eq aligned, range?_eq_none_iff aligned⟩
  · intro series aligned drawn
    have ranged : series.range? ≠ none := mt (range?_eq_none_iff aligned).1 drawn
    have nonempty : series.values ≠ [] := by
      rwa [range?, Ne, Option.map_eq_none_iff, extent?_eq_none_iff] at ranged
    obtain ⟨low, high, range, inside⟩ := exists_range nonempty
    refine ⟨low, high, range, fun segment member x y here => ?_⟩
    have value : y ∈ series.values := by
      rw [values_eq aligned]
      exact List.mem_map.2 ⟨(x, y), List.mem_flatten.2 ⟨segment, member, here⟩, rfl⟩
    obtain ⟨v, rfl⟩ := Exact.isFinite_iff.1 (isFinite_of_mem_values value)
    exact ⟨v, rfl, inside v value⟩

/-- A gap in the middle, and a sample at the end that is no number; and the
range of a rising line. -/
theorem segments_are_maximal_runs_of_gaps :
    let curve : Series Float := ⟨.function, [-2.0, -1.0, 0.0, 1.0, 2.0],
      [some (-0.5), some (-1.0), none, some 1.0, some (0.0 / 0.0)]⟩
    let line : Series Exact := ⟨.function, [.real 0, .real 1], [some (.real 0), some (.real 10)]⟩
    (curve.segments = [[(-2.0, -0.5), (-1.0, -1.0)], [(1.0, 1.0)]] ∧ curve.defined = 3 ∧
      (∃ numbered, curve.Numbered numbered) ∧ curve.range? ≠ none) ∧
    ∃ low high : ℝ, line.range? = some (.real low, .real high) ∧ low < 0 ∧ 10 < high := by
  intro curve line
  have cut : curve.segments = [[(-2.0, -0.5), (-1.0, -1.0)], [(1.0, 1.0)]] := by decide +kernel
  obtain ⟨drawn, exact⟩ := segments_are_maximal_runs
  obtain ⟨-, -, numbered, defined, range⟩ := drawn curve rfl
  refine ⟨⟨cut, ?_, numbered, fun none => ?_⟩, ?_⟩
  · rw [defined, cut]
    rfl
  · rw [range, cut] at none
    cases none
  · have joined : line.segments = [[(.real 0, .real 0), (.real 1, .real 10)]] := rfl
    obtain ⟨low, high, range, inside⟩ := exact line rfl (by rw [joined]; exact List.cons_ne_nil _ _)
    rw [joined, List.forall_mem_singleton] at inside
    obtain ⟨_, ⟨⟩, below, -⟩ := inside (.real 0) (.real 0) (.head _)
    obtain ⟨_, ⟨⟩, -, above⟩ := inside (.real 1) (.real 10) (.tail _ (.head _))
    exact ⟨low, high, range, below, above⟩

end Series

end Fluxion.Plot
