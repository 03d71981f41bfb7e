/-
# Schedules

The time that a step takes on a page follows from when elements appear there: the delay after which
its search finds one, and the pauses that the step makes. A program whose steps take these times one
after another is on schedule. A search that finds nothing ends at the first multiple of the pace
that exhausts the budget, and the step has done nothing by then.

* `exists_lasts_of_search` : a step that searches takes the time of its search and its pauses;
* `exists_onSchedule` : every program is carried out on schedule;
* `OnSchedule.instant_eq` : a program that is exhausted took the times of its steps.
-/
import FormRehearsal.Proofs.Page.Polling
import FormRehearsal.Proofs.Runner.WaitedFor
import Mathlib.Algebra.GroupWithZero.Nat

namespace FormRehearsal

open Page

/-- The time that a step takes which begins at an instant: the delay of its search and its pauses.
-/
def Step.Costs (policy : RunPolicy) (page : Page) (since : Nat) (step : Step)
    (cost : Nat) : Prop :=
  match step.search? policy with
  | none => cost = step.pauses policy
  | some (selector, budget) => ∃ delay,
    page.FoundAfter selector since policy.pollInterval budget delay ∧
      cost = delay + step.pauses policy

/-! ## Deeds -/

section Deeds

variable {policy : RunPolicy} {p : Page} {target : ElementId}

/-- Keys that are pressed take the delay each. -/
theorem exists_lasts_press {delay : Nat} (hs : policy.Exact)
    (h : (p.find? target).isSome) (now : Nat) (keys : List String) :
    ∃ left, Lasts policy now ((press ⟨now, policy, false⟩ target delay keys).run p)
      (now + keys.length * delay) (.ok (), left) := by
  induction keys generalizing now p with
  | nil =>
    rw [List.length_nil, Nat.zero_mul]
    exact ⟨p, .finished now p⟩
  | cons key keys ih =>
    obtain ⟨_, q, hdown, hq⟩ := exists_run (keeps_layout.key target key .down) ⟨_, rfl⟩ h
    obtain ⟨_, r, hup, hr⟩ := exists_run (keeps_layout.key target key .up) ⟨_, rfl⟩ hq
    have hlength : now + (key :: keys).length * delay =
        now + delay + keys.length * delay := by
      rw [List.length_cons, Nat.add_one_mul]
      omega
    simp only [press, Act.run_bind, hdown, hup, hlength]
    by_cases hd : delay = 0
    · -- the next key follows at once
      subst hd
      rw [if_pos rfl]
      exact ih hr now
    · obtain ⟨left, hkeys⟩ := ih hr (now + delay)
      rw [if_neg hd]
      exact ⟨left, lasts_suspend hs (Nat.pos_of_ne_zero hd) hkeys⟩

/-- What is done with an element that is there succeeds, and takes its pauses. -/
theorem exists_lasts_perform (hs : policy.Exact) (deed : Deed) (h : (p.find? target).isSome)
    (now : Nat) :
    ∃ left, Lasts policy now ((deed.perform ⟨now, policy, false⟩ target).run p)
      (now + deed.pauses) (.ok (), left) := by
  have write : ∀ {p : Page} text, (p.find? target).isSome →
      ∃ a q, (Act.call (Surface.write target text)).run p = (.ok a, q) ∧ (q.find? target).isSome :=
    fun text => exists_run (keeps_layout.write target text) ⟨_, rfl⟩
  obtain ⟨_, f, hfocus, hf⟩ := exists_run (keeps_layout.focus target) ⟨_, rfl⟩ h
  cases deed with
  | nothing => exact ⟨p, .finished now p⟩
  | click =>
    obtain ⟨_, q, hclick, -⟩ := exists_run (keeps_layout.click target) ⟨_, rfl⟩ h
    simp only [Deed.perform, Act.run_bind, hclick]
    exact ⟨q, .finished now q⟩
  | focus =>
    simp only [Deed.perform, Act.run_bind, hfocus]
    exact ⟨f, .finished now f⟩
  | type text clear =>
    obtain ⟨_, q, hclear, hq⟩ : ∃ a q,
        (Act.when clear (Act.call (Surface.write target ""))).run f = (.ok a, q) ∧
          (q.find? target).isSome := by
      cases clear
      · exact ⟨(), f, rfl, hf⟩
      · exact write "" hf
    obtain ⟨current, r, hread, hr⟩ := exists_run (keeps_layout.read target) ⟨_, rfl⟩ hq
    obtain ⟨_, t, hwrite, -⟩ := write (current ++ text) hr
    simp only [Deed.perform, Act.run_bind, hfocus, hclear, hread, hwrite]
    exact ⟨t, .finished now t⟩
  | paste text =>
    obtain ⟨_, q, hwrite, -⟩ := write text hf
    simp only [Deed.perform, Act.run_bind, hfocus, hwrite]
    exact ⟨q, .finished now q⟩
  | setValue value =>
    obtain ⟨_, q, hwrite, -⟩ := write value h
    simp only [Deed.perform, Act.run_bind, hwrite]
    exact ⟨q, .finished now q⟩
  | highlight duration =>
    obtain ⟨_, q, hmark, -⟩ := exists_run (keeps_layout.highlight target duration) ⟨_, rfl⟩ h
    simp only [Deed.perform, Act.run_bind, hmark]
    exact ⟨q, lasts_settle hs now q⟩
  | press keys delay =>
    simp only [Deed.perform, Act.run_bind, hfocus]
    exact exists_lasts_press hs hf now keys

end Deeds

/-! ## Searches -/

section Searches

variable {policy : RunPolicy} {p : Page} {selector : String} {since budget : Nat}

/-- A search that finds an element goes on with it after the delay. -/
theorem exists_lasts_of_foundAfter (hp : 1 ≤ policy.pollInterval) (hs : policy.Exact)
    (deed : Deed) {delay : Nat} (h : p.FoundAfter selector since policy.pollInterval budget delay) :
    ∃ left, Lasts policy since
      ((Lookup.ask ⟨since, policy, false⟩ ⟨selector, since, budget⟩ deed).run p)
      (since + (delay + deed.pauses)) (.ok (), left) := by
  obtain ⟨q, rfl, hb, hshows, hbefore⟩ := h
  obtain ⟨e, he⟩ := Option.isSome_iff_exists.1 (isSome_lookup.2 hshows)
  let poll := Poll.alone policy p selector since budget
  have hends : poll.Ends ⟨q + 1, poll.instant q, .ok e.id, poll.after q⟩ :=
    .found hb (fun i hi => Poll.answer_of_not_shows (hbefore i hi)) (Poll.answer_of_lookup he)
  have hthere : ((poll.after q).find? e.id).isSome := by
    rw [Poll.after, Poll.before_alone]
    exact isSome_find?_of_lookup he
  obtain ⟨left, hleft⟩ := exists_lasts_perform hs deed hthere (poll.instant q)
  refine ⟨left, ?_⟩
  rw [← Nat.add_assoc]
  exact (hends.comesTo hp hs deed).lasts (fun _ _ => rfl) hleft

/-- A search that finds nothing ends with its budget, and nothing was done but lookups. -/
theorem lasts_of_neverFound {deed : Deed} (hp : 1 ≤ policy.pollInterval) (hs : policy.Exact)
    (h : p.NeverFound selector since policy.pollInterval budget) :
    Lasts policy since ((Lookup.ask ⟨since, policy, false⟩ ⟨selector, since, budget⟩ deed).run p)
      (since + lookups policy.pollInterval budget * policy.pollInterval)
      (.error (.lookupTimeout selector budget),
        p.queried (lookups policy.pollInterval budget)) := by
  let poll := Poll.alone policy p selector since budget
  have hends : poll.Ends _ := .timedOut fun i hi => Poll.answer_of_not_shows (h i hi)
  have hlasts := (hends.comesTo hp hs deed).lasts (fun _ _ => rfl) (.failed _ _ _)
  rwa [Poll.before_alone] at hlasts

end Searches

/-! ## Steps -/

section Steps

variable {policy : RunPolicy} {p : Page} {raw : Instruction} {step : Step}

/-- A step that searches takes the time of its search and its pauses. -/
theorem exists_lasts_of_search (hp : 1 ≤ policy.pollInterval) (hs : policy.Exact)
    (hd : raw.DecodesTo step) (since : Nat) {selector : String} {budget : Nat}
    (hsearch : step.search? policy = some (selector, budget)) :
    (∃ cost left, step.Costs policy p since cost ∧
      Lasts policy since ((step.start ⟨since, policy, false⟩).run p) (since + cost)
        (.ok (), left)) ∨
    (p.NeverFound selector since policy.pollInterval budget ∧
      Lasts policy since ((step.start ⟨since, policy, false⟩).run p)
        (since + lookups policy.pollInterval budget * policy.pollInterval)
        (.error (.lookupTimeout selector budget),
          p.queried (lookups policy.pollInterval budget))) := by
  obtain ⟨deed, hstart, hpauses, -⟩ :=
    Step.start_of_search (σ := Page) (m := ⟨since, policy, false⟩) hd hsearch
  rw [hstart]
  rcases foundAfter_or_neverFound p selector since policy.pollInterval budget with
    ⟨delay, hfound⟩ | hnever
  · obtain ⟨left, hleft⟩ := exists_lasts_of_foundAfter hp hs deed hfound
    refine .inl ⟨_, left, ?_, hleft⟩
    rw [Step.Costs, hsearch]
    exact ⟨delay, hfound, congrArg (delay + ·) hpauses.symm⟩
  · exact .inr ⟨hnever, lasts_of_neverFound hp hs hnever⟩

/-- Why keys that go to the element with the focus cannot be pressed. -/
inductive Page.Unfocused (p : Page) : ActionError → Prop
  | nowhere (h : p.active = none) : Unfocused p .noActiveElement
  | detached {id : ElementId} (h : p.active = some id) (hn : p.find? id = none) :
    Unfocused p (.surface (.detached id.text))

/-- A step that does not search takes its pauses, or has no element for its keys. -/
theorem exists_lasts_of_no_search (hs : policy.Exact) (hd : raw.DecodesTo step) (since : Nat)
    (hsearch : step.search? policy = none) :
    (∃ left, Lasts policy since ((step.start ⟨since, policy, false⟩).run p)
      (since + step.pauses policy) (.ok (), left)) ∨
    ((∃ keys delay, step = .keySequence none keys delay) ∧ ∃ e, p.Unfocused e ∧
      Lasts policy since ((step.start ⟨since, policy, false⟩).run p) since (.error e, p)) := by
  cases step with
  | wait ms => exact .inl ⟨p, lasts_settle hs since p⟩
  | scroll x y behavior => exact .inl ⟨_, lasts_settle hs since _⟩
  | keySequence given keys delay =>
    cases given with
    | some s => cases hsearch
    | none =>
      have hactive : (Act.call Surface.active).run p = (.ok p.active, p) := rfl
      simp only [Step.start, hd.keys, Option.filter_none, Act.run_bind, hactive, Bool.false_eq_true,
        if_false]
      cases ha : p.active with
      | none => exact .inr ⟨⟨keys, delay, rfl⟩, _, .nowhere ha, .failed _ _ _⟩
      | some id =>
        cases hf : p.find? id with
        | none =>
          refine .inr ⟨⟨keys, delay, rfl⟩, _, .detached ha hf, ?_⟩
          have hfocus : Surface.focus id p = (.error (.detached id.text), p) := by
            show onElement id _ p = _
            rw [onElement, hf]
          simp only [Deed.perform, Act.run_bind, Act.run_call, hfocus]
          exact .failed _ _ _
        | some e =>
          exact .inl
            (exists_lasts_perform hs (.press keys delay) (Option.isSome_of_eq_some hf) since)
  | _ => cases hsearch

end Steps

/-! ## Programs -/

/-- A program that begins at an instant with a page comes to an upshot on schedule: each of its
steps begins when the one before it ends and takes the time that it costs. When elements appear is
read off one page throughout. -/
inductive OnSchedule (policy : RunPolicy) (page : Page) :
    Program → Nat → Page → Upshot Page → Prop
  | exhausted (now : Nat) (p : Page) :
      OnSchedule policy page [] now p ⟨[], .exhausted, now, p⟩
  | unknown {raw : Instruction} {e : RunError} (rest : Program) (now : Nat) (p : Page)
      (hk : raw.kind = .error e) :
      OnSchedule policy page (raw :: rest) now p ⟨[], .unknown e, now, p⟩
  | undecodable {raw : Instruction} {kind : ActionKind} {e : ActionError} (rest : Program)
      (now : Nat) (p : Page) (hk : raw.kind = .ok kind) (hd : Step.decode kind raw = .error e) :
      OnSchedule policy page (raw :: rest) now p ⟨[], .undecodable e, now, p⟩
  /-- the search finds nothing -/
  | timedOut {raw : Instruction} {step : Step} {selector : String} {budget : Nat} (rest : Program)
      (now : Nat) (p : Page) (hd : raw.DecodesTo step)
      (hsearch : step.search? policy = some (selector, budget))
      (hnever : page.NeverFound selector now policy.pollInterval budget) :
      OnSchedule policy page (raw :: rest) now p
        ⟨[], .failed (.lookupTimeout selector budget),
          now + lookups policy.pollInterval budget * policy.pollInterval,
          p.queried (lookups policy.pollInterval budget)⟩
  /-- there is no element that keys could go to -/
  | unfocused {raw : Instruction} {keys : List String} {delay : Nat} {e : ActionError}
      (rest : Program) (now : Nat) (p : Page) (hd : raw.DecodesTo (.keySequence none keys delay))
      (he : p.Unfocused e) :
      OnSchedule policy page (raw :: rest) now p ⟨[], .failed e, now, p⟩
  | carriedOut {raw : Instruction} {step : Step} {now cost : Nat} {p left : Page} {rest : Program}
      {up : Upshot Page} (hd : raw.DecodesTo step)
      (hcost : step.Costs policy page now cost)
      (hlasts : Lasts policy now ((step.start ⟨now, policy, false⟩).run p) (now + cost)
        (.ok (), left))
      (hrest : OnSchedule policy page rest (now + cost) left up) :
      OnSchedule policy page (raw :: rest) now p
        (up.after (.ofStep step now (now + cost)))

/-- How long a step took. -/
def ActionReport.duration (action : ActionReport) : Nat := action.finishedAt - action.startedAt

section Programs

variable {policy : RunPolicy} {page p : Page} {program : Program} {now : Nat}

theorem Step.costs_congr (h : page.layout = p.layout) {step : Step} {cost : Nat} :
    step.Costs policy page now cost ↔ step.Costs policy p now cost := by
  unfold Step.Costs
  split
  · exact Iff.rfl
  · simp only [foundAfter_congr h]

/-- Every program is carried out on schedule. -/
theorem exists_onSchedule (hp : 1 ≤ policy.pollInterval) (hs : policy.Exact)
    (h : page.layout = p.layout) :
    ∃ up, CarriesOut policy program now p up ∧ OnSchedule policy page program now p up := by
  induction program generalizing now p with
  | nil => exact ⟨_, .exhausted now p, .exhausted now p⟩
  | cons raw rest ih =>
    cases hk : raw.kind with
    | error e => exact ⟨_, .unknown rest now p hk, .unknown rest now p hk⟩
    | ok kind =>
      cases hd : Step.decode kind raw with
      | error e => exact ⟨_, .undecodable rest now p hk hd, .undecodable rest now p hk hd⟩
      | ok step =>
        have hstep : raw.DecodesTo step := ⟨kind, hk, hd⟩
        -- a step that succeeds leaves the rest of the program with the same layout
        have succeeds : ∀ {cost left}, step.Costs policy p now cost →
            Lasts policy now ((step.start ⟨now, policy, false⟩).run p) (now + cost) (.ok (), left) →
            ∃ up, CarriesOut policy (raw :: rest) now p up ∧
              OnSchedule policy page (raw :: rest) now p up := by
          intro cost left hcost hlasts
          have hleft : page.layout = left.layout :=
            h.trans <|
              (keeps_start keeps_layout.frames _ step p).trans (hlasts.keeps keeps_layout.frames)
          obtain ⟨up, hcarries, hon⟩ : ∃ up, CarriesOut policy rest (now + cost) left up ∧
              OnSchedule policy page rest (now + cost) left up :=
            ih hleft
          exact ⟨_, .carriedOut hstep hlasts hcarries,
            .carriedOut hstep ((Step.costs_congr h).2 hcost) hlasts hon⟩
        cases hsearch : step.search? policy with
        | some search =>
          obtain ⟨selector, budget⟩ := search
          rcases exists_lasts_of_search (p := p) hp hs hstep now hsearch with
            ⟨cost, left, hcost, hlasts⟩ | ⟨hnever, hlasts⟩
          · exact succeeds hcost hlasts
          · exact ⟨_, .failed rest hstep hlasts,
              .timedOut rest now p hstep hsearch ((neverFound_congr h).2 hnever)⟩
        | none =>
          rcases exists_lasts_of_no_search (p := p) hs hstep now hsearch with
            ⟨left, hlasts⟩ | ⟨⟨keys, delay, rfl⟩, e, he, hlasts⟩
          · refine succeeds ?_ hlasts
            rw [Step.Costs, hsearch]
          · exact ⟨_, .failed rest hstep hlasts, .unfocused rest now p hstep he⟩

/-- A program that is exhausted took the times of its steps. -/
theorem OnSchedule.instant_eq {up : Upshot Page} (h : OnSchedule policy page program now p up)
    (hup : up.ending = .exhausted) :
    up.instant = now + (up.actions.map ActionReport.duration).sum := by
  induction h with
  | exhausted => rfl
  | @carriedOut raw step now cost p left rest up hd hcost hlasts hrest ih =>
    have hduration : (ActionReport.ofStep step now (now + cost)).duration = cost :=
      Nat.add_sub_cancel_left now cost
    simp only [Upshot.after, List.map_cons, List.sum_cons, hduration]
    rw [ih hup, Nat.add_assoc]
  | _ => cases hup

end Programs

/-! ## Runs -/

/-- **Schedules.** On an exact runtime a run that is waited for is on schedule: each step begins when
the one before it ends and takes the time of its search and its pauses, a search that finds nothing
ends the run when its budget is spent, and a run that completes took the times of its steps. -/
theorem runsTo_onSchedule (page : Page) (policy : RunPolicy) (moves : List (Move Page))
    (program : Program) (hp : 1 ≤ policy.pollInterval) (hs : policy.Exact)
    (hidle : ((World.fresh page policy).afterAll moves).runner.running = false) :
    let w := (World.fresh page policy).afterAll moves
    ∃ (up : Upshot Page) (more : List (Move Page)),
      w.runner.RunsTo program (up.report program.length [] w.runner.now) (w.afterAll more).runner ∧
      (w.afterAll more).runner.surface = up.surface ∧
      OnSchedule policy w.runner.surface program w.runner.now w.runner.surface up ∧
      (up.ending.outcome = .completed →
        up.instant = w.runner.now + (up.actions.map ActionReport.duration).sum) := by
  intro w
  obtain ⟨up, hcarries, hon⟩ : ∃ up,
      CarriesOut policy program w.runner.now w.runner.surface up ∧
        OnSchedule policy w.runner.surface program w.runner.now w.runner.surface up :=
    exists_onSchedule hp hs rfl
  have hpolicy : w.runner.policy = policy := World.policy_afterAll page policy moves
  rw [← hpolicy] at hcarries
  obtain ⟨more, hruns, hsurface⟩ := (owned_afterAll page policy moves).runsTo hidle hcarries
  exact ⟨up, more, hruns, hsurface, hon, fun hup =>
    hon.instant_eq (Ending.outcome_eq_completed.1 hup)⟩

/-- A pause, and a click on an element that appears after it. -/
theorem runsTo_onSchedule_late :
    let page := (Page.add {} "#late" "" 450).2
    let program : Program :=
      [[("action", .string "wait"), ("ms", .string "300")],
        [("action", .string "click"), ("selector", .string "#late")]]
    let r := (World.fresh page {}).runner
    ∃ (up : Upshot Page) (after : Runner Page),
      r.RunsTo program (up.report 2 [] 0) after ∧ after.surface = up.surface ∧
      OnSchedule {} page program 0 page up ∧
      (up.ending.outcome = .completed →
        up.instant = (up.actions.map ActionReport.duration).sum) := by
  intro page program r
  obtain ⟨up, more, hruns, hsurface, hon, htime⟩ :=
    runsTo_onSchedule page {} [] program (by decide) (fun _ => rfl) rfl
  exact ⟨up, _, hruns, hsurface, hon, fun hup => (htime hup).trans (Nat.zero_add _)⟩

end FormRehearsal
