import Fluxion.Proofs.Sampling

/-!
# Whose fault a failure is

An integration fails for its limits, for its integrand or for itself.  The limits are at fault exactly
when one of them is not finite (`integrate_eq_bounds_iff`): this is looked at before anything is
sampled, and no rule says it again.  An error of the integrand is one that the integrand has at a
point where it was asked (`exists_sample_of_integrate`).

Both are properties of a sampling as a whole.  A sampling is `Founded` if each failure it has against
an integrand can be told from what was asked, and founded samplings can be put one after the other
(`Founded.bind`).  What is transparent is founded, since its failures are those of its samples.
-/

namespace Fluxion.Quadrature

variable {α β : Type} {f : Integrand}

/-- An error that can arise between finite limits from an integrand that was asked at
some points: an error of the integrand's own is what it has at one of them. -/
def IntegrationError.FoundedOn (f : Integrand) (points : List Float) : IntegrationError → Prop
  | .eval error => ∃ x ∈ points, f x = .error error
  | .bounds _ => False
  | _ => True

/-- An error stays founded when more points have been asked at. -/
theorem IntegrationError.FoundedOn.mono {error : IntegrationError} {points more : List Float}
    (founded : error.FoundedOn f points) (included : points ⊆ more) : error.FoundedOn f more := by
  cases error with
  | eval error =>
    obtain ⟨x, asked, fails⟩ := founded
    exact ⟨x, included asked, fails⟩
  | _ => exact founded

/-- A sample is refused for what the integrand has at its point.  With this
every rule inherits from its samples what its errors are founded on. -/
theorem foundedOn_of_sampleFailure? {points : List Float} {x : Float} {error : IntegrationError}
    (asked : x ∈ points) (refused : sampleFailure? f x = some error) :
    error.FoundedOn f points := by
  rw [sampleFailure?_eq_some_iff] at refused
  cases answer : f x with
  | error fault =>
    rw [answer] at refused
    cases refused
    exact ⟨x, asked, answer⟩
  | ok value =>
    rw [answer, finiteAnswer] at refused
    split at refused
    · cases refused
    · cases refused
      trivial

namespace Sampling

variable {s : Sampling α} {next : α → Sampling β}

/-- Whatever the sampling fails with is founded on the points it has asked at.
The property is closed under doing one thing after another, so it can be read
off the rules. -/
def Founded (s : Sampling α) : Prop :=
  ∀ (f : Integrand) (error : IntegrationError), s.run f = .error error →
    error.FoundedOn f (s.points f)

/-- A sampling that only asks, and never fails on its own, is founded: what it
fails with is the failure of a sample. -/
theorem Transparent.founded (transparent : s.Transparent) : s.Founded := by
  intro f error fails
  obtain ⟨x, asked, refused⟩ :=
    List.exists_of_findSome?_eq_some ((transparent f error).1 fails)
  exact foundedOn_of_sampleFailure? asked refused

namespace Founded

theorem done (result : α) : (done result).Founded := (Transparent.done result).founded

theorem notConverged (value estimate : Float) :
    (fail (.notConverged value estimate) : Sampling α).Founded := by
  rintro f error ⟨⟩
  trivial

theorem notFinite : (fail .notFinite : Sampling α).Founded := by
  rintro f error ⟨⟩
  trivial

theorem invalidRule (reason : String) : (fail (.invalidRule reason) : Sampling α).Founded := by
  rintro f error ⟨⟩
  trivial

/-- Founded samplings may follow each other; the second one's points come on
top of the first one's. -/
theorem bind (first : s.Founded) (second : ∀ result, (next result).Founded) :
    (s >>= next).Founded := by
  intro f error fails
  cases ran : s.run f with
  | error other =>
    cases (run_bind_of_error ran).symm.trans fails
    rw [points_bind_of_error ran]
    exact first f _ ran
  | ok result =>
    rw [run_bind_of_ok ran] at fails
    rw [points_bind_of_ok ran]
    exact (second result f error fails).mono (List.subset_append_right _ _)

end Founded

end Sampling

open Sampling

/-- The loop of bisections is founded: its own failures, too many parts and an
infinite value, blame no point. -/
theorem founded_refine (settings : Settings) (subdivision : Subdivision) :
    (refine settings subdivision).Founded := by
  induction subdivision using refine.induct settings with
  | case1 subdivision above full =>
    rw [refine, if_pos above, if_pos full]
    exact .notConverged _ _
  | case2 subdivision above room bisected =>
    rw [refine, if_pos above, if_neg room]
    exact (transparent_bisect subdivision).founded.bind fun next => bisected next.1 next.2
  | case3 subdivision within finite =>
    rw [refine, if_neg within, if_pos finite]
    exact .done _
  | case4 subdivision within infinite =>
    rw [refine, if_neg within, if_neg infinite]
    exact .notFinite

theorem founded_adaptive (settings : Settings) (lower upper : Float) :
    (adaptive settings lower upper).Founded :=
  (transparent_measure lower upper).founded.bind fun part => founded_refine settings (.whole part)

section Rules

variable [NodeTable]

/-- The sum over the nodes of a rule is founded, and a table without that rule
blames no point either. -/
theorem founded_legendreSum (n : Nat) (lower upper : Float) :
    (legendreSum n lower upper).Founded := by
  -- a rule that there is is transparent, one that there is not fails without a sample
  cases rule : NodeTable.nodes n with
  | error reason =>
    rw [legendreSum, rule]
    exact .invalidRule reason
  | ok nodes => exact (transparent_legendreSum rule lower upper).founded

/-- The rule of Gauss and Legendre with its doubled check is founded: both
sums are, and the last test blames no point. -/
theorem founded_gaussLegendre (n : Nat) (lower upper : Float) :
    (gaussLegendre n lower upper).Founded :=
  (founded_legendreSum n lower upper).bind fun coarse =>
    (founded_legendreSum (2 * n) lower upper).bind fun fine => by
      split
      · exact .done _
      · exact .notFinite

/-- The integral between limits in order is founded, whichever the method. -/
theorem founded_forwardIntegral (settings : Settings) (lower upper : Float) :
    (forwardIntegral settings lower upper).Founded := by
  rw [forwardIntegral]
  split
  · exact founded_adaptive settings lower upper
  · exact founded_gaussLegendre _ lower upper

/-! ### Integrals -/

variable {settings : Settings} {lower upper : Float}

/-- Without finite limits nothing is sampled. -/
theorem integral_eq_fail_of_not_finite (infinite : ¬(lower.isFinite = true ∧ upper.isFinite = true)) :
    integral settings lower upper = .fail (.bounds .notFinite) := by
  rw [not_and_or, Bool.not_eq_true, Bool.not_eq_true] at infinite
  rw [integral, if_pos]
  rwa [Bool.or_eq_true, Bool.not_eq_true', Bool.not_eq_true']

/-- The integral between finite limits is founded, whichever way the limits stand. -/
theorem founded_integral (settings : Settings) (finite : lower.isFinite = true ∧
    upper.isFinite = true) : (integral settings lower upper).Founded := by
  rw [integral, finite.1, finite.2, if_neg (by decide)]
  split
  · exact .done _
  · split
    · exact (founded_forwardIntegral settings upper lower).bind fun _ => .done _
    · exact founded_forwardIntegral settings lower upper

/-- The limits are at fault exactly when one of them is not finite.  An
integrand cannot fake such an error, as its own errors come wrapped. -/
theorem integrate_eq_bounds_iff {fault : BoundsError} :
    integrate f settings lower upper = .error (.bounds fault) ↔
      fault = .notFinite ∧ ¬(lower.isFinite = true ∧ upper.isFinite = true) := by
  constructor
  · intro fails
    by_cases finite : lower.isFinite = true ∧ upper.isFinite = true
    · exact (founded_integral settings finite f _ fails).elim
    · rw [integrate, integral_eq_fail_of_not_finite finite] at fails
      cases fails
      exact ⟨rfl, finite⟩
  · rintro ⟨rfl, infinite⟩
    rw [integrate, integral_eq_fail_of_not_finite infinite]
    rfl

/-- An error of the integrand is what it has at a point where it was asked.
So the message of such an error is true of some sample. -/
theorem exists_sample_of_integrate {error : EvalError Float}
    (fails : integrate f settings lower upper = .error (.eval error)) :
    ∃ x ∈ (integral settings lower upper).points f, f x = .error error := by
  by_cases finite : lower.isFinite = true ∧ upper.isFinite = true
  · exact founded_integral settings finite f _ fails
  · cases (integrate_eq_bounds_iff.2 ⟨rfl, finite⟩).symm.trans fails

end Rules

end Fluxion.Quadrature
