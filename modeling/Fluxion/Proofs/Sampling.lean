import Mathlib.Logic.Basic
import Fluxion.Proofs.Outcome
import Fluxion.Quadrature.Integral

/-!
# Samples that fail

What becomes of an integration when its integrand has no finite value at one of the points it is
asked at.  Nothing but its values at these points counts (`run_congr`).  `Sampling.failure?` is the
failure of the first sample that fails, and a sampling `Aborts` if that is its own result whenever
there is one.  A sampling is `Transparent` if it fails for no other reason besides.  A single sample
is transparent, and so is what is put together from transparent samplings (`Transparent.bind`), which
gives all measurements.  Aborting samplings can be put one after the other as well (`Aborts.bind`);
so the adaptive rule aborts, however often it bisects and however its loop ends.

A Gauss–Legendre rule is handed an integrand that cannot fail.  Its sum is no aborting sampling: it
goes on after a failure, and what it has to do is to carry the first one to its end
(`KeepsFirstFailure`).  That is again closed under sequences (`KeepsFirstFailure.bind`), and the
rule around the sum fails with what was kept (`transparent_legendreSum`).

A sampling `Asks` for a number of samples if it has taken that many whenever it succeeds; these
numbers add up (`Asks.bind`).
-/

namespace Fluxion.Quadrature

variable {α β : Type} {f g : Integrand} {x : Float}

/-- Why the sample at a point is refused, if it is. -/
def sampleFailure? (f : Integrand) (x : Float) : Option IntegrationError :=
  match finiteAnswer (f x) with
  | .ok _ => none
  | .error error => some error

theorem finiteAnswer_eq_ok {answer : Except (EvalError Float) Float} {value : Float} :
    finiteAnswer answer = .ok value ↔ answer = .ok value ∧ value.isFinite = true := by
  constructor
  · intro counts
    cases answer with
    | error error => cases counts
    | ok other =>
      rw [finiteAnswer] at counts
      split at counts
      · next finite =>
        cases counts
        exact ⟨rfl, finite⟩
      · cases counts
  · rintro ⟨rfl, finite⟩
    exact if_pos finite

/-- A sample fails with what is made of the integrand's answer. -/
theorem sampleFailure?_eq_some_iff {error : IntegrationError} :
    sampleFailure? f x = some error ↔ finiteAnswer (f x) = .error error := by
  rw [sampleFailure?]
  cases finiteAnswer (f x) <;> simp

/-- A sample fails unless the integrand has a finite value. -/
theorem sampleFailure?_eq_none_iff :
    sampleFailure? f x = none ↔ ∃ value, f x = .ok value ∧ value.isFinite = true := by
  rw [sampleFailure?]
  cases answer : finiteAnswer (f x) with
  | ok value => exact iff_of_true rfl ⟨value, finiteAnswer_eq_ok.1 answer⟩
  | error error =>
    refine iff_of_false (Option.some_ne_none error) ?_
    rintro ⟨value, good⟩
    cases answer.symm.trans (finiteAnswer_eq_ok.2 good)

theorem sampleFailure?_of_error {error : EvalError Float} (fails : f x = .error error) :
    sampleFailure? f x = some (.eval error) := by
  rw [sampleFailure?, fails, finiteAnswer]

theorem sampleFailure?_of_not_finite {value : Float} (answers : f x = .ok value)
    (infinite : value.isFinite = false) : sampleFailure? f x = some .notFinite := by
  rw [sampleFailure?, answers, finiteAnswer, if_neg (ne_true_of_eq_false infinite)]

/-- A sample is refused because it fails or is not finite, for no other reason. -/
theorem sampleFailure?_ne_notConverged {value estimate : Float} :
    sampleFailure? f x ≠ some (.notConverged value estimate) := by
  intro failed
  cases answer : f x with
  | error error => cases (sampleFailure?_of_error answer).symm.trans failed
  | ok answered =>
    cases finite : answered.isFinite with
    | true => cases (sampleFailure?_eq_none_iff.2 ⟨answered, answer, finite⟩).symm.trans failed
    | false => cases (sampleFailure?_of_not_finite answer finite).symm.trans failed

namespace Sampling

/-! ### Sequences -/

theorem bind_done (s : Sampling α) : s.bind done = s := by
  induction s with
  | done result => rfl
  | fail error => rfl
  | ask point answered inductionHypothesis =>
    exact congrArg (ask point) (funext inductionHypothesis)

/-- Samplings may be grouped either way.  With the laws of `done` this makes
them a lawful monad. -/
theorem bind_assoc {γ : Type} (s : Sampling α) (next : α → Sampling β) (last : β → Sampling γ) :
    (s.bind next).bind last = s.bind fun result => (next result).bind last := by
  induction s with
  | done result => rfl
  | fail error => rfl
  | ask point answered inductionHypothesis =>
    exact congrArg (ask point) (funext inductionHypothesis)

/-- Samplings are a lawful monad, so the general lemmas about steps apply to them. -/
instance : LawfulMonad Sampling :=
  LawfulMonad.mk' Sampling bind_done (fun _ _ => rfl) bind_assoc

variable {s : Sampling α} {next : α → Sampling β}

/-- A run goes through the parts of a sampling in order. -/
theorem run_bind : (s >>= next).run f = s.run f >>= fun result => (next result).run f := by
  induction s with
  | done result => rfl
  | fail error => rfl
  | ask point answered inductionHypothesis => exact inductionHypothesis (f point)

theorem run_map (g : α → β) : (g <$> s).run f = (s.run f).map g := by
  rw [← bind_pure_comp, run_bind]
  cases s.run f <;> rfl

theorem run_mapM (step : α → Sampling β) (items : List α) :
    (items.mapM step).run f = items.mapM fun item => (step item).run f := by
  induction items with
  | nil => rfl
  | cons item rest inductionHypothesis =>
    rw [List.mapM_cons, List.mapM_cons, run_bind]
    congr 1
    funext result
    rw [run_bind, inductionHypothesis]
    rfl

theorem run_bind_of_ok {result : α} (succeeds : s.run f = .ok result) :
    (s >>= next).run f = (next result).run f := by
  rw [run_bind, succeeds]
  rfl

theorem run_bind_of_error {error : IntegrationError} (fails : s.run f = .error error) :
    (s >>= next).run f = .error error := by
  rw [run_bind, fails]
  rfl

/-- After a success the points of what follows are appended. -/
theorem points_bind_of_ok {result : α} (succeeds : s.run f = .ok result) :
    (s >>= next).points f = s.points f ++ (next result).points f := by
  induction s with
  | done other =>
    cases succeeds
    rfl
  | fail error => cases succeeds
  | ask point answered inductionHypothesis =>
    exact congrArg (point :: ·) (inductionHypothesis (f point) succeeds)

/-- After a failure nothing follows. -/
theorem points_bind_of_error {error : IntegrationError} (fails : s.run f = .error error) :
    (s >>= next).points f = s.points f := by
  induction s with
  | done result => cases fails
  | fail other => rfl
  | ask point answered inductionHypothesis =>
    exact congrArg (point :: ·) (inductionHypothesis (f point) fails)

/-- Two integrands with the same values where one of them is asked have
the same result. -/
theorem run_congr (agree : ∀ x ∈ s.points f, g x = f x) : s.run g = s.run f := by
  induction s with
  | done result => rfl
  | fail error => rfl
  | ask point answered inductionHypothesis =>
    have here : g point = f point := agree point List.mem_cons_self
    change (answered (g point)).run g = (answered (f point)).run f
    rw [here]
    exact inductionHypothesis (f point) fun x later => agree x (List.mem_cons_of_mem point later)

/-! ### The first failure -/

/-- The failure of the first sample that fails.  Whether the sampling reports
it is another question. -/
def failure? (f : Integrand) (s : Sampling α) : Option IntegrationError :=
  (s.points f).findSome? (sampleFailure? f)

/-- Behind a part that succeeds, the first failure may be one of the rest. -/
theorem failure?_bind_of_ok {result : α} (succeeds : s.run f = .ok result) :
    (s >>= next).failure? f = (s.failure? f).or ((next result).failure? f) := by
  rw [failure?, points_bind_of_ok succeeds, List.findSome?_append]
  rfl

theorem failure?_bind_of_error {error : IntegrationError} (fails : s.run f = .error error) :
    (s >>= next).failure? f = s.failure? f := by
  rw [failure?, points_bind_of_error fails]
  rfl

/-- No sample fails exactly if the integrand has finite values wherever
it is asked. -/
theorem failure?_eq_none_iff :
    s.failure? f = none ↔ ∀ x ∈ s.points f, ∃ value, f x = .ok value ∧ value.isFinite = true := by
  rw [failure?, List.findSome?_eq_none_iff]
  exact forall₂_congr fun x _ => sampleFailure?_eq_none_iff

/-- The first sample that fails decides. -/
theorem failure?_eq_some_of_points {before after : List Float} {error : IntegrationError}
    (asked : s.points f = before ++ x :: after)
    (good : ∀ y ∈ before, ∃ value, f y = .ok value ∧ value.isFinite = true)
    (fails : sampleFailure? f x = some error) : s.failure? f = some error := by
  have passed : before.findSome? (sampleFailure? f) = none :=
    List.findSome?_eq_none_iff.2 fun y earlier => sampleFailure?_eq_none_iff.2 (good y earlier)
  rw [failure?, asked, List.findSome?_append, passed, Option.none_or, List.findSome?_cons, fails]

theorem run_sample : (sample x).run f = finiteAnswer (f x) := by
  rw [sample, run]
  cases finiteAnswer (f x) <;> rfl

theorem failure?_sample : (sample x).failure? f = sampleFailure? f x := by
  rw [failure?, sample, points, sampleFailure?]
  cases answer : finiteAnswer (f x) <;> simp [points, sampleFailure?, answer]

/-- The failure of the first sample that fails is the failure of the whole,
whatever the integrand.  This is what being fail-fast means for a sampling. -/
def Aborts (s : Sampling α) : Prop :=
  ∀ (f : Integrand) (error : IntegrationError), s.failure? f = some error → s.run f = .error error

namespace Aborts

theorem of_not_asking (still : ∀ f, s.points f = []) : s.Aborts := by
  intro f error failed
  rw [failure?, still f] at failed
  cases failed

theorem done (result : α) : (done result).Aborts := of_not_asking fun _ => rfl

theorem fail (error : IntegrationError) : (fail error : Sampling α).Aborts :=
  of_not_asking fun _ => rfl

theorem bind (first : s.Aborts) (second : ∀ result, (next result).Aborts) :
    (s >>= next).Aborts := by
  intro f error failed
  cases ran : s.run f with
  | error other =>
    rw [failure?_bind_of_error ran] at failed
    rw [run_bind, first f error failed]
    rfl
  | ok result =>
    rw [failure?_bind_of_ok ran] at failed
    rw [run_bind_of_ok ran]
    cases early : s.failure? f with
    | some other => cases ran.symm.trans (first f other early)
    | none =>
      rw [early, Option.none_or] at failed
      exact second result f error failed

end Aborts

/-- The whole fails if a sample fails, with the first one's failure, and for
no other reason. -/
def Transparent (s : Sampling α) : Prop :=
  ∀ (f : Integrand) (error : IntegrationError), s.run f = .error error ↔ s.failure? f = some error

namespace Transparent

/-- A transparent sampling aborts at its first failing sample. -/
theorem aborts (transparent : s.Transparent) : s.Aborts := fun f error =>
  (transparent f error).2

/-- Samples fail because the integrand does or is not finite, never for want
of convergence. -/
theorem run_ne_notConverged (transparent : s.Transparent) {value estimate : Float} :
    s.run f ≠ .error (.notConverged value estimate) := by
  intro fails
  obtain ⟨x, -, refused⟩ := List.exists_of_findSome?_eq_some ((transparent f _).1 fails)
  exact sampleFailure?_ne_notConverged refused

theorem done (result : α) : (done result).Transparent := by
  intro f error
  exact iff_of_false nofun nofun

theorem sample (x : Float) : (sample x).Transparent := by
  intro f error
  rw [run_sample, failure?_sample, sampleFailure?_eq_some_iff]

theorem bind (first : s.Transparent) (second : ∀ result, (next result).Transparent) :
    (s >>= next).Transparent := by
  intro f error
  cases ran : s.run f with
  | error other =>
    rw [run_bind_of_error ran, failure?_bind_of_error ran, ← first f error, ran,
      Except.error.injEq, Except.error.injEq]
  | ok result =>
    have passed : s.failure? f = none := by
      cases early : s.failure? f with
      | none => rfl
      | some other => cases ran.symm.trans ((first f other).2 early)
    rw [run_bind_of_ok ran, failure?_bind_of_ok ran, passed, Option.none_or]
    exact second result f error

/-- A list of transparent samplings is transparent, by induction on the list. -/
theorem mapM {γ : Type} {action : γ → Sampling β} (transparent : ∀ a, (action a).Transparent)
    (items : List γ) : (items.mapM action).Transparent := by
  induction items with
  | nil => exact done []
  | cons item rest inductionHypothesis =>
    rw [List.mapM_cons]
    exact (transparent item).bind fun result => inductionHypothesis.bind fun results =>
      done (result :: results)

end Transparent

/-! ### The number of samples -/

/-- Whenever a sampling succeeds, it has asked for that many samples.  A
failure may come earlier. -/
def Asks (count : Nat) (s : Sampling α) : Prop :=
  ∀ (f : Integrand) (result : α), s.run f = .ok result → (s.points f).length = count

namespace Asks

variable {m n : Nat}

theorem done (result : α) : (done result).Asks 0 := fun _ _ _ => rfl

theorem sample (x : Float) : (sample x).Asks 1 := by
  intro f result succeeds
  rw [Quadrature.sample, points, List.length_cons]
  cases finiteAnswer (f x) <;> rfl

theorem bind (first : s.Asks m) (second : ∀ result, (next result).Asks n) :
    (s >>= next).Asks (m + n) := by
  intro f last succeeds
  rw [run_bind] at succeeds
  obtain ⟨result, ran, rest⟩ := bind_eq_ok succeeds
  rw [points_bind_of_ok ran, List.length_append, first f result ran, second result f last rest]

theorem mapM {γ : Type} {action : γ → Sampling β} (asks : ∀ a, (action a).Asks n)
    (items : List γ) : (items.mapM action).Asks (items.length * n) := by
  induction items with
  | nil =>
    rw [List.length_nil, Nat.zero_mul]
    exact done []
  | cons item rest inductionHypothesis =>
    rw [List.mapM_cons, List.length_cons, Nat.succ_mul, Nat.add_comm]
    exact (asks item).bind fun result => inductionHypothesis.bind fun results =>
      done (result :: results)

end Asks

end Sampling

/-! ### The adaptive rule -/

open Sampling

theorem transparent_samplePair (centre halfLength : Float) (node : NodePair) :
    (samplePair centre halfLength node).Transparent :=
  (Transparent.sample _).bind fun _ => (Transparent.sample _).bind fun _ => .done _

theorem transparent_measure (lower upper : Float) : (measure lower upper).Transparent :=
  (Transparent.sample _).bind fun _ =>
    (Transparent.mapM (transparent_samplePair _ _) nodePairs).bind fun _ => .done _

theorem transparent_bisect (subdivision : Subdivision) : subdivision.bisect.Transparent :=
  (transparent_measure _ _).bind fun _ => (transparent_measure _ _).bind fun _ => .done _

theorem asks_samplePair (centre halfLength : Float) (node : NodePair) :
    (samplePair centre halfLength node).Asks 2 :=
  (Asks.sample _).bind fun _ => (Asks.sample _).bind fun _ => .done _

/-- The rule on one part asks for fifteen samples. -/
theorem asks_measure (lower upper : Float) : (measure lower upper).Asks 15 :=
  (Asks.sample _).bind fun _ =>
    (Asks.mapM (asks_samplePair _ _) nodePairs).bind fun _ => .done _

/-- A bisection asks for thirty samples, fifteen for each half. -/
theorem asks_bisect (subdivision : Subdivision) : subdivision.bisect.Asks 30 :=
  (asks_measure _ _).bind fun _ => (asks_measure _ _).bind fun _ => .done _

/-- The loop aborts at its first failing sample, in whichever round that is. -/
theorem aborts_refine (settings : Settings) (subdivision : Subdivision) :
    (refine settings subdivision).Aborts := by
  induction subdivision using refine.induct settings with
  | case1 subdivision above full =>
    rw [refine, if_pos above, if_pos full]
    exact .fail _
  | case2 subdivision above room bisected =>
    rw [refine, if_pos above, if_neg room]
    exact (transparent_bisect subdivision).aborts.bind fun next => bisected next.1 next.2
  | case3 subdivision within finite =>
    rw [refine, if_neg within, if_pos finite]
    exact .done _
  | case4 subdivision within infinite =>
    rw [refine, if_neg within, if_neg infinite]
    exact .fail _

/-- The adaptive rule aborts at its first failing sample. -/
theorem aborts_adaptive (settings : Settings) (lower upper : Float) :
    (adaptive settings lower upper).Aborts :=
  (transparent_measure lower upper).aborts.bind fun part => aborts_refine settings (.whole part)

/-! ### Gauss–Legendre rules -/

/-- A computation that samples a function without failures: it always comes to
its end, and what it has kept aside by then is what it was given, or else its
first failure. -/
def KeepsFirstFailure (action : StateT (Option IntegrationError) Sampling α) : Prop :=
  ∀ (f : Integrand) (failure : Option IntegrationError), ∃ result,
    (action.run failure).run f =
      .ok (result, failure.or ((action.run failure).failure? f))

namespace KeepsFirstFailure

variable {action : StateT (Option IntegrationError) Sampling α}

theorem pure (result : α) : KeepsFirstFailure (pure result) := by
  intro f failure
  exact ⟨result, by cases failure <;> rfl⟩

theorem sampleAside (x : Float) : KeepsFirstFailure (sampleAside x) := by
  intro f failure
  cases answer : finiteAnswer (f x) with
  | ok value =>
    refine ⟨value, ?_⟩
    have here : sampleFailure? f x = none :=
      sampleFailure?_eq_none_iff.2 ⟨value, finiteAnswer_eq_ok.1 answer⟩
    simp [StateT.run, Quadrature.sampleAside, Sampling.run, failure?, points, answer, here]
  | error error =>
    refine ⟨0.0 / 0.0, ?_⟩
    have here : sampleFailure? f x = some error := by rw [sampleFailure?, answer]
    simp [StateT.run, Quadrature.sampleAside, Sampling.run, failure?, points, answer, here]

theorem bind {next : α → StateT (Option IntegrationError) Sampling β}
    (first : KeepsFirstFailure action) (second : ∀ result, KeepsFirstFailure (next result)) :
    KeepsFirstFailure (action >>= next) := by
  intro f failure
  obtain ⟨result, ran⟩ := first f failure
  obtain ⟨last, finished⟩ := second result f (failure.or ((action.run failure).failure? f))
  refine ⟨last, ?_⟩
  rw [StateT.run_bind, run_bind_of_ok ran, failure?_bind_of_ok ran, finished, Option.or_assoc]

theorem mapM {γ : Type} {action : γ → StateT (Option IntegrationError) Sampling β}
    (keeps : ∀ a, KeepsFirstFailure (action a)) (items : List γ) :
    KeepsFirstFailure (items.mapM action) := by
  induction items with
  | nil => exact pure []
  | cons item rest inductionHypothesis =>
    rw [List.mapM_cons]
    exact (keeps item).bind fun result => inductionHypothesis.bind fun results =>
      pure (result :: results)

/-- A weighted sum keeps its first failure, and goes through its nodes
all the same. -/
theorem weightedSum (nodes : List Node) (lower upper : Float) :
    KeepsFirstFailure (weightedSum nodes Quadrature.sampleAside lower upper) :=
  (mapM (fun _ => (sampleAside _).bind fun _ => pure _) nodes).bind fun _ => pure _

end KeepsFirstFailure

section Rules

variable [NodeTable]

theorem transparent_legendreSum {n : Nat} {nodes : List Node} (rule : NodeTable.nodes n = .ok nodes)
    (lower upper : Float) : (legendreSum n lower upper).Transparent := by
  intro f error
  rw [legendreSum, rule]
  dsimp only
  obtain ⟨value, ran⟩ := KeepsFirstFailure.weightedSum nodes lower upper f none
  rw [Option.none_or] at ran
  rw [run_bind_of_ok ran, failure?_bind_of_ok ran]
  -- the sum has asked for every sample, the rule around it asks for none
  cases ((weightedSum nodes sampleAside lower upper).run none).failure? f with
  | none => exact iff_of_false nofun nofun
  | some first =>
    rw [Option.some_or]
    exact ⟨fun failed => congrArg some (Except.error.inj failed),
      fun failed => congrArg Except.error (Option.some.inj failed)⟩

/-- The sum over the nodes reports its first failing sample, although the
nodes behind it are still sampled. -/
theorem aborts_legendreSum (n : Nat) (lower upper : Float) : (legendreSum n lower upper).Aborts := by
  cases rule : NodeTable.nodes n with
  | error reason =>
    rw [legendreSum, rule]
    exact .fail _
  | ok nodes => exact (transparent_legendreSum rule lower upper).aborts

theorem aborts_gaussLegendre (n : Nat) (lower upper : Float) :
    (gaussLegendre n lower upper).Aborts :=
  (aborts_legendreSum n lower upper).bind fun coarse =>
    (aborts_legendreSum (2 * n) lower upper).bind fun fine => by
      split
      · exact .done _
      · exact .fail _

/-! ### Integrals -/

theorem aborts_forwardIntegral (settings : Settings) (lower upper : Float) :
    (forwardIntegral settings lower upper).Aborts := by
  rw [forwardIntegral]
  split
  · exact aborts_adaptive settings lower upper
  · exact aborts_gaussLegendre _ lower upper

/-- The integral aborts at its first failing sample, whichever the method and
the order of the limits. -/
theorem aborts_integral (settings : Settings) (lower upper : Float) :
    (integral settings lower upper).Aborts := by
  rw [integral]
  split
  · exact .fail _
  · split
    · exact .done _
    · split
      · exact (aborts_forwardIntegral settings upper lower).bind fun _ => .done _
      · exact aborts_forwardIntegral settings lower upper

/-- An integral that is handed out rests on samples that all count. -/
theorem failure?_eq_none_of_integrate {settings : Settings} {lower upper : Float}
    {outcome : Outcome} (succeeds : integrate f settings lower upper = .ok outcome) :
    (integral settings lower upper).failure? f = none := by
  cases failed : (integral settings lower upper).failure? f with
  | none => rfl
  | some error =>
    cases (aborts_integral settings lower upper f error failed).symm.trans succeeds

/-- An integral is only handed out if every sample on the way to it is a
finite number.  Where a sample is not, the first one that is not is the
failure of the integration, whatever would have been asked after it.  An error
of the integrand is passed on as it is, and a value that is not finite is an
error of its own.  This holds of both rules, whatever their nodes. -/
theorem first_failing_sample_aborts (f : Integrand) (settings : Settings) (lower upper : Float) :
    (∀ outcome, integrate f settings lower upper = .ok outcome →
      ∀ x ∈ (integral settings lower upper).points f,
        ∃ value, f x = .ok value ∧ value.isFinite = true) ∧
    ∀ before x after, (integral settings lower upper).points f = before ++ x :: after →
      (∀ y ∈ before, ∃ value, f y = .ok value ∧ value.isFinite = true) →
      (∀ error, f x = .error error →
        integrate f settings lower upper = .error (.eval error)) ∧
      (∀ value, f x = .ok value → value.isFinite = false →
        integrate f settings lower upper = .error .notFinite) := by
  constructor
  · intro outcome succeeds
    exact failure?_eq_none_iff.1 (failure?_eq_none_of_integrate succeeds)
  · intro before x after asked good
    have aborts := aborts_integral settings lower upper f
    constructor
    · intro error fails
      exact aborts _ (failure?_eq_some_of_points asked good (sampleFailure?_of_error fails))
    · intro value answers infinite
      exact aborts _
        (failure?_eq_some_of_points asked good (sampleFailure?_of_not_finite answers infinite))

end Rules

/-- The rules with two and with four nodes. -/
abbrev printedNodes : NodeTable where
  nodes
    | 2 => .ok [⟨0.5773502691896257, 1.0⟩, ⟨-0.5773502691896257, 1.0⟩]
    | 4 => .ok
        [⟨0.8611363115940526, 0.3478548451374538⟩, ⟨0.3399810435848563, 0.6521451548625461⟩,
          ⟨-0.3399810435848563, 0.6521451548625461⟩, ⟨-0.8611363115940526, 0.3478548451374538⟩]
    | _ => .error "no such rule is printed"

/-- The square has an integral, the reciprocal is infinite in the middle of its
interval, and a function without values below zero fails at the second node. -/
theorem first_failing_sample_aborts_of_pole :
    letI := printedNodes
    let rule : Settings := { Settings.default with method := .gaussLegendre 2 }
    let square : Integrand := fun x => .ok (x * x)
    let reciprocal : Integrand := fun x => .ok (1.0 / x)
    let outside (x : Float) : EvalError Float := ⟨"math.log(x)", .domain (.function .log) x⟩
    let halfLine : Integrand := fun x => if x ≤ 0.0 then .error (outside x) else .ok x
    (∃ outcome, integrate square rule 0.0 1.0 = .ok outcome ∧
      ∀ x ∈ (integral rule 0.0 1.0).points square,
        ∃ value, square x = .ok value ∧ value.isFinite = true) ∧
    integrate reciprocal Settings.default 1.0 (-1.0) = .error .notFinite ∧
    integrate halfLine rule (-1.0) 1.0 = .error (.eval (outside (-0.5773502691896257))) := by
  intro rule square reciprocal outside halfLine
  let table := printedNodes
  refine ⟨?_, ?_, ?_⟩
  · have succeeds : (integrate square rule 0.0 1.0).isOk = true := by decide +kernel
    obtain ⟨outcome, ran⟩ := exists_of_isOk succeeds
    exact ⟨outcome, ran, (first_failing_sample_aborts square rule 0.0 1.0).1 outcome ran⟩
  · have asked : (integral Settings.default 1.0 (-1.0)).points reciprocal = [] ++ 0.0 :: [] := by
      decide +kernel
    have infinite : (1.0 / 0.0 : Float).isFinite = false := by decide +kernel
    exact ((first_failing_sample_aborts reciprocal _ _ _).2 [] 0.0 [] asked (by simp)).2 (1.0 / 0.0)
      rfl infinite
  · have asked : (integral rule (-1.0) 1.0).points halfLine =
        [0.5773502691896257] ++ (-0.5773502691896257) :: [] := by
      decide +kernel
    have good : ∀ y ∈ [0.5773502691896257], ∃ value, halfLine y = .ok value ∧
        value.isFinite = true := by
      intro y first
      rw [List.mem_singleton] at first
      subst first
      exact ⟨_, if_neg (by decide +kernel), by decide +kernel⟩
    exact ((first_failing_sample_aborts halfLine _ _ _).2 _ _ [] asked good).1 _
      (if_pos (by decide +kernel))

end Fluxion.Quadrature
