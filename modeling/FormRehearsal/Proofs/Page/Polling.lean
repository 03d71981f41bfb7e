/-
# Polling

A search looks for an element at once and then again after every pace, as long as its budget lasts.
It ends at the first lookup that finds an element or that the surface refuses. If there is none, it
ends at the first multiple of the pace at which the budget is spent, so never before the deadline
and less than a pace after it. This holds on every surface, and anything may be done to the surface
between two lookups. That no other lookups are made is seen on a surface that writes them down.

* `Resumes` : what a step comes to when its waits are over;
* `Poll.exists_ends` : every search ends;
* `Poll.Ends.comes` : a search comes to what its lookups say;
* `Poll.search_conducted` : how every search is conducted.
-/
import FormRehearsal.Page.Fault
import FormRehearsal.Proofs.Page.Appearance
import FormRehearsal.Proofs.Run.Demand
import Mathlib.Logic.ExistsUnique

namespace FormRehearsal

/-! ## Waits that are over -/

section Resuming

variable {σ : Type} [Surface σ] {policy : RunPolicy} {meanwhile : Nat → σ → σ}

/-- What a step came to at an instant comes to something else at another one: whenever a wait is
over, what is left to do is resumed, on a surface to which something may have been done meanwhile.
-/
inductive Resumes (policy : RunPolicy) (meanwhile : Nat → σ → σ) :
    Nat → Except ActionError Progress × σ → Nat → Except ActionError Progress × σ → Prop
  | refl (now : Nat) (x : Except ActionError Progress × σ) :
      Resumes policy meanwhile now x now x
  | waits {now wake later : Nat} {hold : Hold} {s : σ} {y : Except ActionError Progress × σ}
      (hw : now < wake)
      (h : Resumes policy meanwhile wake
        ((hold.resume ⟨wake, policy, false⟩).run (meanwhile wake s)) later y) :
      Resumes policy meanwhile now (.ok (.waiting wake hold), s) later y

namespace Resumes

variable {now later : Nat} {x y : Except ActionError Progress × σ}

theorem trans (h : Resumes policy meanwhile now x later y) {last : Nat}
    {z : Except ActionError Progress × σ} (h' : Resumes policy meanwhile later y last z) :
    Resumes policy meanwhile now x last z := by
  induction h with
  | refl => exact h'
  | waits hw _ ih => exact .waits hw (ih h')

/-- A step fails at one instant only, and in one way. -/
theorem eq_of_error {e : ActionError} {s : σ}
    (h : Resumes policy meanwhile now x later (.error e, s)) {last : Nat} {e' : ActionError}
    {s' : σ} (h' : Resumes policy meanwhile now x last (.error e', s')) :
    last = later ∧ e' = e ∧ s' = s := by
  generalize hy : (Except.error e, s) = y at h
  induction h with
  | refl =>
    subst hy
    cases h'
    exact ⟨rfl, rfl, rfl⟩
  | waits _ _ ih =>
    cases h' with
    | waits _ h' => exact ih h' hy

/-- On a surface that is left alone, what a step comes to lasts as long as the step. -/
theorem lasts (h : Resumes policy meanwhile now x later y) (hm : ∀ now s, meanwhile now s = s)
    {last : Nat} {result : Except ActionError Unit × σ} (hl : Lasts policy later y last result) :
    Lasts policy now x last result := by
  induction h with
  | refl => exact hl
  | waits hw _ ih =>
    rw [hm] at ih
    exact .waits hw (ih hl)

end Resumes

/-- After a pause what is left to do is resumed. -/
theorem resumes_suspend {ms : Nat} (h : policy.Exact) (hms : 0 < ms)
    (now : Nat) (hold : Hold) (s : σ) :
    Resumes policy meanwhile now ((Moment.suspend ⟨now, policy, false⟩ ms hold).run s)
      (now + ms) ((hold.resume ⟨now + ms, policy, false⟩).run (meanwhile (now + ms) s)) := by
  have hi : Moment.interrupts ⟨now, policy, false⟩ = false := by simp [Moment.interrupts]
  rw [Moment.suspend, hi, Runtime.Exact.wakeAfter h]
  exact .waits (Nat.lt_add_of_pos_right hms) (.refl _ _)

/-- A search within its budget makes one lookup, and goes on with the answer. -/
theorem run_ask_query {now since budget : Nat} {selector : String} (hp : 1 ≤ policy.pollInterval)
    (hb : now - since < budget) (deed : Deed) (s : σ) :
    (Lookup.ask ⟨now, policy, false⟩ ⟨selector, since, budget⟩ deed).run s =
      match Surface.query now selector s with
      | (.ok (some target), s) => (deed.perform ⟨now, policy, false⟩ target).run s
      | (.ok none, s) => (Moment.suspend ⟨now, policy, false⟩ policy.pollInterval
          (.looking ⟨selector, since, budget⟩ deed)).run s
      | (.error e, s) => (.error (.surface e), s) := by
  have hpace : policy.pollStep = policy.pollInterval := Nat.max_eq_right hp
  have hrepeats : policy.repeats s = 0 := if_neg (by omega)
  simp only [Lookup.ask, if_pos hb, Act.run_bind, Act.run_look, hrepeats, Lookup.retry, hpace,
    Act.run_call]
  rcases Surface.query now selector s with ⟨e | _ | target, left⟩ <;> rfl

end Resuming

/-! ## Searches that poll -/

/-- The number of lookups of a search that finds nothing. -/
def lookups (pace budget : Nat) : Nat := (budget + pace - 1) / pace

/-- A lookup is made as long as the budget lasts. -/
theorem lt_lookups {pace budget : Nat} (h : 0 < pace) (q : Nat) :
    q < lookups pace budget ↔ q * pace < budget := by
  rw [lookups, Nat.lt_iff_add_one_le, Nat.le_div_iff_mul_le h, Nat.add_one_mul]
  omega

/-- After the last lookup of a search that finds nothing the budget is spent, by less than a pace.
-/
theorem lookups_mul_bounds {pace : Nat} (h : 0 < pace) (budget : Nat) :
    budget ≤ lookups pace budget * pace ∧ lookups pace budget * pace < budget + pace := by
  have hiff : ∀ n, n < lookups pace budget ↔ n * pace < budget := lt_lookups h
  constructor
  · exact Nat.not_lt.1 (mt (hiff _).2 (Nat.lt_irrefl _))
  · cases hn : lookups pace budget with
    | zero => omega
    | succ n =>
      have hb : n * pace < budget := (hiff n).1 (by omega)
      rw [Nat.add_one_mul]
      omega

/-- A search that begins at an instant, and what is done to the surface meanwhile. -/
structure Poll (σ : Type) where
  policy : RunPolicy
  selector : String
  since : Nat
  budget : Nat
  /-- the surface at the beginning -/
  surface : σ
  /-- what has been done to the surface when a wait is over at an instant -/
  meanwhile : Nat → σ → σ

/-- How a search ended. -/
structure Verdict (σ : Type) where
  /-- the number of lookups that were made -/
  lookups : Nat
  instant : Nat
  /-- the element that was found, or why there is none -/
  result : Except ActionError ElementId
  surface : σ

namespace Poll

variable {σ : Type}

/-- The time between two lookups. -/
def pace (poll : Poll σ) : Nat := poll.policy.pollInterval

/-- The instant of the lookup of a number, which is zero for the first one. -/
def instant (poll : Poll σ) (n : Nat) : Nat := poll.since + n * poll.pace

/-- The instants and the selectors of the first lookups. -/
def log (poll : Poll σ) (n : Nat) : List (Nat × String) :=
  (List.range n).map fun i => (poll.instant i, poll.selector)

/-- The budget lasts for a lookup if it lasts for a later one. -/
theorem budget_lasts {poll : Poll σ} {i q : Nat} (hi : i ≤ q) (hb : q * poll.pace < poll.budget) :
    i * poll.pace < poll.budget :=
  Nat.lt_of_le_of_lt (Nat.mul_le_mul_right _ hi) hb

theorem instant_zero (poll : Poll σ) : poll.instant 0 = poll.since := by
  rw [instant, Nat.zero_mul, Nat.add_zero]

theorem instant_succ (poll : Poll σ) (n : Nat) :
    poll.instant (n + 1) = poll.instant n + poll.pace := by
  rw [instant, instant, Nat.add_one_mul, Nat.add_assoc]

theorem log_succ (poll : Poll σ) (n : Nat) :
    poll.log (n + 1) = poll.log n ++ [(poll.instant n, poll.selector)] := by
  rw [log, log, List.range_succ, List.map_append]
  rfl

variable [Surface σ]

/-- The surface at the lookup of a number, if the earlier ones find nothing. -/
def before (poll : Poll σ) : Nat → σ
  | 0 => poll.surface
  | n + 1 => poll.meanwhile (poll.instant (n + 1))
      (Surface.query (poll.instant n) poll.selector (before poll n)).2

/-- What the lookup of a number gives. -/
def answer (poll : Poll σ) (n : Nat) : Except SurfaceError (Option ElementId) :=
  (Surface.query (poll.instant n) poll.selector (poll.before n)).1

/-- The surface after the lookup of a number. -/
def after (poll : Poll σ) (n : Nat) : σ :=
  (Surface.query (poll.instant n) poll.selector (poll.before n)).2

/-- The search at the lookup of a number: what it comes to without waiting. -/
def search (poll : Poll σ) (deed : Deed) (n : Nat) : Except ActionError Progress × σ :=
  (Lookup.ask ⟨poll.instant n, poll.policy, false⟩ ⟨poll.selector, poll.since, poll.budget⟩
    deed).run (poll.before n)

/-- How a search ends according to its lookups. -/
inductive Ends (poll : Poll σ) : Verdict σ → Prop
  /-- lookups find nothing until one finds an element -/
  | found {q : Nat} {target : ElementId} (hb : q * poll.pace < poll.budget)
      (hbefore : ∀ i < q, poll.answer i = .ok none) (h : poll.answer q = .ok (some target)) :
      Ends poll ⟨q + 1, poll.instant q, .ok target, poll.after q⟩
  /-- lookups find nothing until one is refused -/
  | refused {q : Nat} {e : SurfaceError} (hb : q * poll.pace < poll.budget)
      (hbefore : ∀ i < q, poll.answer i = .ok none) (h : poll.answer q = .error e) :
      Ends poll ⟨q + 1, poll.instant q, .error (.surface e), poll.after q⟩
  /-- all lookups before the deadline find nothing -/
  | timedOut (h : ∀ i, i * poll.pace < poll.budget → poll.answer i = .ok none) :
      Ends poll ⟨lookups poll.pace poll.budget, poll.instant (lookups poll.pace poll.budget),
        .error (.lookupTimeout poll.selector poll.budget),
        poll.before (lookups poll.pace poll.budget)⟩

/-- What a search that is over goes on with: what is done with the element, or the failure. -/
def goOn (poll : Poll σ) (deed : Deed) (v : Verdict σ) : Except ActionError Progress × σ :=
  match v.result with
  | .ok target => (deed.perform ⟨v.instant, poll.policy, false⟩ target).run v.surface
  | .error e => (.error e, v.surface)

/-! ## One lookup after another -/

section Lookups

variable {poll : Poll σ} {deed : Deed} {n : Nat}

/-- Within the budget the search makes the lookup, and goes on with its answer. -/
theorem search_eq (hp : 1 ≤ poll.policy.pollInterval) (hb : n * poll.pace < poll.budget) :
    poll.search deed n =
      match poll.answer n with
      | .ok (some target) =>
        (deed.perform ⟨poll.instant n, poll.policy, false⟩ target).run (poll.after n)
      | .ok none => (Moment.suspend ⟨poll.instant n, poll.policy, false⟩ poll.policy.pollInterval
          (.looking ⟨poll.selector, poll.since, poll.budget⟩ deed)).run (poll.after n)
      | .error e => (.error (.surface e), poll.after n) := by
  have hwithin : poll.instant n - poll.since < poll.budget := by
    rw [instant, Nat.add_sub_cancel_left]
    exact hb
  rw [search, run_ask_query hp hwithin, answer, after]
  rcases Surface.query (poll.instant n) poll.selector (poll.before n) with ⟨e | _ | target, left⟩
    <;> rfl

/-- When the budget is spent there is no lookup. -/
theorem search_eq_timeout (hb : poll.budget ≤ n * poll.pace) :
    poll.search deed n =
      (.error (.lookupTimeout poll.selector poll.budget), poll.before n) := by
  have hspent : ¬ poll.instant n - poll.since < poll.budget := by
    rw [instant, Nat.add_sub_cancel_left]
    exact Nat.not_lt.2 hb
  rw [search, Lookup.ask, if_neg hspent, Act.run_fail]

/-- A lookup that finds nothing is followed by the next one. -/
theorem resumes_next (hp : 1 ≤ poll.policy.pollInterval)
    (hs : poll.policy.Exact) (hb : n * poll.pace < poll.budget)
    (h : poll.answer n = .ok none) :
    Resumes poll.policy poll.meanwhile (poll.instant n) (poll.search deed n)
      (poll.instant (n + 1)) (poll.search deed (n + 1)) := by
  rw [search_eq hp hb, h, search, before, instant_succ]
  exact resumes_suspend hs hp _ _ _

/-- Lookups that find nothing follow one another. -/
theorem resumes_searching (hp : 1 ≤ poll.policy.pollInterval)
    (hs : poll.policy.Exact) (deed : Deed)
    (h : ∀ i < n, i * poll.pace < poll.budget ∧ poll.answer i = .ok none) :
    Resumes poll.policy poll.meanwhile poll.since (poll.search deed 0) (poll.instant n)
      (poll.search deed n) := by
  induction n with
  | zero =>
    rw [instant_zero]
    exact .refl _ _
  | succ n ih =>
    obtain ⟨hb, hn⟩ := h n (Nat.lt_succ_self n)
    exact (ih fun i hi => h i (Nat.lt_succ_of_lt hi)).trans (resumes_next hp hs hb hn)

end Lookups

/-! ## The end of a search -/

section Endings

variable {poll : Poll σ} {v : Verdict σ}

/-- Every search ends: either all its lookups find nothing, or there is a first one that does not.
-/
theorem exists_ends (poll : Poll σ) : ∃ v, poll.Ends v := by
  classical
  by_cases h : ∃ q, q * poll.pace < poll.budget ∧ poll.answer q ≠ .ok none
  · obtain ⟨hb, hq⟩ := Nat.find_spec h
    have hbefore : ∀ i < Nat.find h, poll.answer i = .ok none := by
      intro i hi
      by_contra hne
      exact Nat.find_min h hi ⟨budget_lasts (Nat.le_of_lt hi) hb, hne⟩
    rcases ha : poll.answer (Nat.find h) with e | _ | target
    · exact ⟨_, .refused hb hbefore ha⟩
    · exact absurd ha hq
    · exact ⟨_, .found hb hbefore ha⟩
  · refine ⟨_, .timedOut fun i hi => ?_⟩
    by_contra hne
    exact h ⟨i, hi, hne⟩

/-- There is at most one first lookup that does not find nothing. -/
theorem first_unique {q r : Nat} (hq : ∀ i < q, poll.answer i = .ok none)
    (hr : ∀ i < r, poll.answer i = .ok none) (hnq : poll.answer q ≠ .ok none)
    (hnr : poll.answer r ≠ .ok none) : r = q := by
  rcases Nat.lt_trichotomy q r with hlt | heq | hgt
  · exact absurd (hr q hlt) hnq
  · exact heq.symm
  · exact absurd (hq r hgt) hnr

/-- A search ends in one way only. -/
theorem Ends.unique (h : poll.Ends v) {w : Verdict σ} (h' : poll.Ends w) : w = v := by
  cases h with
  | found hb hbefore ha | refused hb hbefore ha =>
    cases h' with
    | found hb' hbefore' ha' | refused hb' hbefore' ha' =>
      obtain rfl := first_unique hbefore hbefore' (by simp [ha]) (by simp [ha'])
      cases ha.symm.trans ha'
      all_goals rfl
    | timedOut hnone => cases ha.symm.trans (hnone _ hb)
  | timedOut hnone =>
    cases h' with
    | found hb' hbefore' ha' | refused hb' hbefore' ha' => cases ha'.symm.trans (hnone _ hb')
    | timedOut => rfl

/-- All lookups are made before the deadline. -/
theorem Ends.lookup_lt (hpace : 0 < poll.pace) (h : poll.Ends v) {i : Nat}
    (hi : i < v.lookups) : i * poll.pace < poll.budget := by
  cases h with
  | found hb | refused hb => exact budget_lasts (Nat.le_of_lt_succ hi) hb
  | timedOut => exact (lt_lookups hpace i).1 hi

/-- A search comes to what its lookups say. -/
theorem Ends.comes (hp : 1 ≤ poll.policy.pollInterval)
    (hs : poll.policy.Exact) (h : poll.Ends v) (deed : Deed) :
    Resumes poll.policy poll.meanwhile poll.since (poll.search deed 0) v.instant
      (poll.goOn deed v) := by
  cases h with
  | found hb hbefore ha | refused hb hbefore ha =>
    have hsearch := resumes_searching hp hs deed fun i hi =>
      ⟨budget_lasts (Nat.le_of_lt hi) hb, hbefore i hi⟩
    rw [search_eq hp hb, ha] at hsearch
    exact hsearch
  | timedOut ha =>
    have hpace : 0 < poll.pace := hp
    have hspent : poll.budget ≤ lookups poll.pace poll.budget * poll.pace :=
      (lookups_mul_bounds hpace _).1
    have hsearch : Resumes poll.policy poll.meanwhile poll.since (poll.search deed 0) _
        (poll.search deed (lookups poll.pace poll.budget)) :=
      resumes_searching hp hs deed fun i hi =>
        have hb := (lt_lookups hpace i).1 hi
        ⟨hb, ha i hb⟩
    rw [search_eq_timeout hspent] at hsearch
    exact hsearch

end Endings

end Poll

/-! ## Pages that are left alone -/

/-- The page after some more lookups. -/
def Page.queried (p : Page) (n : Nat) : Page := { p with queries := p.queries + n }

section Pages

variable {policy : RunPolicy} {p : Page} {selector : String}
  {since budget n : Nat}

/-- The search on a page to which nothing is done meanwhile. -/
def Poll.alone (policy : RunPolicy) (p : Page) (selector : String)
    (since budget : Nat) : Poll Page :=
  { policy, selector, since, budget, surface := p, meanwhile := fun _ p => p }

/-- Lookups are counted, and do nothing else to the page. -/
theorem Poll.before_alone (n : Nat) :
    (alone policy p selector since budget).before n = p.queried n := by
  induction n with
  | zero => rfl
  | succ n ih =>
    rw [before, ih]
    rfl

/-- A lookup finds what is there at its instant. -/
theorem Poll.answer_alone : (alone policy p selector since budget).answer n =
    .ok ((p.lookup (since + n * policy.pollInterval) selector).map (·.id)) := by
  rw [answer, before_alone]
  rfl

theorem Poll.answer_of_lookup {e : Element}
    (he : p.lookup (since + n * policy.pollInterval) selector = some e) :
    (alone policy p selector since budget).answer n = .ok (some e.id) := by
  rw [answer_alone, he, Option.map_some]

/-- It finds nothing if no element shows then. -/
theorem Poll.answer_of_not_shows
    (h : ¬ p.Shows selector (since + n * policy.pollInterval)) :
    (alone policy p selector since budget).answer n = .ok none := by
  rw [answer_alone, Page.lookup_eq_none h, Option.map_none]

end Pages

/-! ## Surfaces that write lookups down -/

/-- A surface with the instants and the selectors of its lookups. -/
structure Logged (σ : Type) where
  surface : σ
  lookups : List (Nat × String) := []

/-- A capability that is no lookup. -/
def Logged.lift {σ α : Type} (capability : Capability σ α) : Capability (Logged σ) α := fun s =>
  let (a, surface) := capability s.surface
  (a, { s with surface })

instance {σ : Type} [Surface σ] : Surface (Logged σ) where
  query now selector := fun s =>
    let (a, surface) := Surface.query now selector s.surface
    (a, ⟨surface, s.lookups ++ [(now, selector)]⟩)
  lookupsLeft s := Surface.lookupsLeft s.surface
  active := Logged.lift Surface.active
  click id := Logged.lift (Surface.click id)
  focus id := Logged.lift (Surface.focus id)
  read id := Logged.lift (Surface.read id)
  write id text := Logged.lift (Surface.write id text)
  key id key phase := Logged.lift (Surface.key id key phase)
  scroll x y behavior := Logged.lift (Surface.scroll x y behavior)
  highlight id duration := Logged.lift (Surface.highlight id duration)

namespace Poll

variable {σ : Type}

/-- The same search on a surface that writes lookups down. -/
def logged (poll : Poll σ) : Poll (Logged σ) :=
  { poll with
    surface := ⟨poll.surface, []⟩
    meanwhile := fun now s => { s with surface := poll.meanwhile now s.surface } }

/-- The end of a search on a surface where its lookups are written down. -/
def written (poll : Poll σ) (v : Verdict σ) : Verdict (Logged σ) :=
  { v with surface := ⟨v.surface, poll.log v.lookups⟩ }

variable [Surface σ] {poll : Poll σ}

theorem before_logged (n : Nat) : poll.logged.before n = ⟨poll.before n, poll.log n⟩ := by
  induction n with
  | zero => rfl
  | succ n ih =>
    rw [before, ih, log_succ]
    rfl

theorem answer_logged (n : Nat) : poll.logged.answer n = poll.answer n := by
  rw [answer, before_logged]
  rfl

theorem after_logged (n : Nat) : poll.logged.after n = ⟨poll.after n, poll.log (n + 1)⟩ := by
  rw [after, before_logged, log_succ]
  rfl

/-- Writing lookups down does not change how a search ends. -/
theorem Ends.logged {v : Verdict σ} (h : poll.Ends v) : poll.logged.Ends (poll.written v) := by
  cases h with
  | found hb hbefore ha =>
    rw [written, ← after_logged]
    exact .found hb (fun i hi => (answer_logged i).trans (hbefore i hi))
      ((answer_logged _).trans ha)
  | refused hb hbefore ha =>
    rw [written, ← after_logged]
    exact .refused hb (fun i hi => (answer_logged i).trans (hbefore i hi))
      ((answer_logged _).trans ha)
  | timedOut ha =>
    rw [written, ← before_logged]
    exact .timedOut fun i hi => (answer_logged i).trans (ha i hi)

/-! ## How searches are conducted -/

/-- A search comes to an end: at the instant of the end it goes on with the element, or fails. -/
def ComesTo (poll : Poll σ) (v : Verdict σ) : Prop :=
  ∀ deed, Resumes poll.policy poll.meanwhile poll.since
    ((Lookup.ask ⟨poll.since, poll.policy, false⟩ ⟨poll.selector, poll.since, poll.budget⟩
      deed).run poll.surface) v.instant (poll.goOn deed v)

/-- How a search is conducted that ends in some way. -/
structure Conducted (poll : Poll σ) (v : Verdict σ) : Prop where
  comes : poll.ComesTo v
  /-- the lookups that are written down are the first ones, as many as were made -/
  logged : poll.logged.ComesTo (poll.written v)
  /-- every lookup is made before the deadline -/
  early : ∀ i < v.lookups, poll.instant i < poll.since + poll.budget
  /-- a timeout is told at the deadline or less than a pace later -/
  late : v.result = .error (.lookupTimeout poll.selector poll.budget) →
    v.lookups = lookups poll.pace poll.budget ∧ v.instant = poll.instant v.lookups ∧
      poll.since + poll.budget ≤ v.instant ∧ v.instant < poll.since + poll.budget + poll.pace

theorem Ends.comesTo {v : Verdict σ} (hp : 1 ≤ poll.policy.pollInterval)
    (hs : poll.policy.Exact) (h : poll.Ends v) : poll.ComesTo v := by
  intro deed
  have hcomes := h.comes hp hs deed
  rwa [search, instant_zero] at hcomes

/-- **Polling.** Every search ends, in one way, and as its lookups say: with the first element that is
found, with the first refusal, or with a timeout if all lookups before the deadline find nothing. -/
theorem search_conducted (poll : Poll σ) (hp : 1 ≤ poll.policy.pollInterval)
    (hs : poll.policy.Exact) :
    (∃! v, poll.Ends v) ∧ ∀ v, poll.Ends v → poll.Conducted v := by
  obtain ⟨v₀, h₀⟩ := exists_ends poll
  refine ⟨⟨v₀, h₀, fun _ => h₀.unique⟩, fun v h => ?_⟩
  have hpace : 0 < poll.pace := hp
  constructor
  case comes => exact h.comesTo hp hs
  case logged => exact h.logged.comesTo hp hs
  case early => exact fun i hi => Nat.add_lt_add_left (h.lookup_lt hpace hi) _
  case late =>
    intro hresult
    cases h with
    | found => cases hresult
    | refused => cases hresult
    | timedOut ha =>
      obtain ⟨hleast, hmost⟩ := lookups_mul_bounds hpace poll.budget
      refine ⟨rfl, rfl, Nat.add_le_add_left hleast _, ?_⟩
      rw [Nat.add_assoc]
      exact Nat.add_lt_add_left hmost _

/-- An element that is visible only after the last lookup is not found, though it is visible at the
deadline. -/
theorem search_conducted_too_late :
    let poll := Poll.alone {} (Page.add {} "#late" "" 801).2 "#late" 0 1000
    1 ≤ poll.policy.pollInterval ∧ poll.policy.Exact ∧
      ∃ v, poll.Conducted v ∧ v.lookups = 5 ∧ v.instant = 1000 ∧
        v.result = .error (.lookupTimeout "#late" 1000) := by
  intro poll
  have hp : 1 ≤ poll.policy.pollInterval := by decide
  have hs : poll.policy.Exact := fun _ => rfl
  have hends : poll.Ends _ := .timedOut fun i hi => by
    apply answer_of_not_shows
    rintro ⟨e, he, hv, -⟩
    obtain rfl := List.mem_singleton.1 he
    have hlast : i * 200 < 1000 := hi
    have hvisible : 801 ≤ 0 + i * 200 := hv
    omega
  exact ⟨hp, hs, _, (search_conducted poll hp hs).2 _ hends, by decide, by decide, rfl⟩

/-- A search whose third lookup is refused fails at once, and not with a timeout, although no lookup
finds an element. -/
theorem search_refused :
    let poll : Poll (Faulty Page) :=
      { policy := {}, selector := "#a", since := 0, budget := 1000
        surface := ⟨{}, [⟨.query, .unavailable "gone", 2⟩]⟩, meanwhile := fun _ s => s }
    (∀ i, i * poll.pace < poll.budget → ∀ target, poll.answer i ≠ .ok (some target)) ∧
      (∃ left, Resumes poll.policy poll.meanwhile poll.since (poll.search .nothing 0) 400
        (.error (.surface (.unavailable "gone")), left)) ∧
      ¬ ∃ later left, Resumes poll.policy poll.meanwhile poll.since (poll.search .nothing 0) later
        (.error (.lookupTimeout poll.selector poll.budget), left) := by
  intro poll
  have hp : 1 ≤ poll.policy.pollInterval := by decide
  have hs : poll.policy.Exact := fun _ => rfl
  have hends : poll.Ends _ := .refused (q := 2) (e := .unavailable "gone") (by decide)
    (fun i hi => by
      obtain rfl | rfl : i = 0 ∨ i = 1 := by omega
      all_goals rfl) rfl
  have hcomes := hends.comes hp hs .nothing
  refine ⟨fun i hi target => ?_, ⟨_, hcomes⟩, ?_⟩
  · have hi : i * 200 < 1000 := hi
    obtain rfl | rfl | rfl | rfl | rfl : i = 0 ∨ i = 1 ∨ i = 2 ∨ i = 3 ∨ i = 4 := by omega
    all_goals rintro ⟨⟩
  · rintro ⟨later, left, h⟩
    obtain ⟨-, he, -⟩ := hcomes.eq_of_error h
    cases he

end Poll

end FormRehearsal
