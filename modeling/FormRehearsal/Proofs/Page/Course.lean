/-
# Courses of steps

A step begins at a moment on a page and goes on whenever its wait is over. While it waits, time
passes, a stop request may come, and elements are added and removed from outside. On every page that
is reached, whatever happens while it waits, there are few ways in which a step that was decoded can
fail: its wait is interrupted, its search times out, no element has the focus for its keys, or the
element was removed between two keys. A step that searches acts on the element as soon as it finds
it, so no other step meets a handle without an element.

* `Act.meets_bind` : what an act comes to on a surface, one act after another;
* `meets_press` : keys are pressed as long as their element is there;
* `meets_start`, `meets_resume` : what a step comes to that begins or goes on;
* `failsBy_of_course` : how steps fail.
-/
import FormRehearsal.Proofs.Page.Handles
import FormRehearsal.Proofs.Run.Demand

namespace FormRehearsal

/-! ## What acts come to -/

namespace Act

variable {σ α β : Type}

/-- What an act gives and leaves has one property, what it fails with and leaves has another one. -/
def Meets (p : α → σ → Prop) (q : ActionError → σ → Prop) : Except ActionError α × σ → Prop
  | (.ok a, s) => p a s
  | (.error e, s) => q e s

/-- An act after another one begins on the surface that the first one leaves. -/
theorem meets_bind {act : Act σ β} {next : β → Act σ α} {s : σ} {r : β → σ → Prop}
    {p : α → σ → Prop} {q : ActionError → σ → Prop} (ha : Meets r q (act.run s))
    (hn : ∀ b t, r b t → Meets p q ((next b).run t)) : Meets p q ((act >>= next).run s) := by
  rw [run_bind]
  rcases hr : act.run s with ⟨e | b, t⟩
  · rw [hr] at ha
    exact ha
  · rw [hr] at ha
    exact hn b t ha

end Act

open Page

/-! ## Courses -/

/-- What a step that began at a moment on a page has come to at another moment. It waits, and while
it does, the page changes from outside and time passes; when its wait is over it goes on, and a stop
request may end the wait. -/
inductive Step.Course (step : Step) (m₀ : Moment) (p₀ : Page) :
    Moment → Except ActionError Progress × Page → Prop where
  | begun : Course step m₀ p₀ m₀ ((step.start m₀).run p₀)
  | changed {m : Moment} {wake : Nat} {hold : Hold} {p : Page}
    (h : Course step m₀ p₀ m (.ok (.waiting wake hold), p)) (change : Change) :
    Course step m₀ p₀ m (.ok (.waiting wake hold), change.apply p)
  | later {m n : Moment} {wake : Nat} {hold : Hold} {p : Page}
    (h : Course step m₀ p₀ m (.ok (.waiting wake hold), p)) (hnow : m.now ≤ n.now)
    (hpolicy : n.policy = m.policy) : Course step m₀ p₀ n (.ok (.waiting wake hold), p)
  | resumed {m : Moment} {wake : Nat} {hold : Hold} {p : Page}
    (h : Course step m₀ p₀ m (.ok (.waiting wake hold), p)) (hw : wake ≤ m.now) :
    Course step m₀ p₀ m ((hold.resume m).run p)
  | interrupted {m : Moment} {wake : Nat} {hold : Hold} {p : Page}
    (h : Course step m₀ p₀ m (.ok (.waiting wake hold), p)) (hi : m.interrupts = true) :
    Course step m₀ p₀ m (.error (.interrupted stoppedByUser), p)

/-! ## How steps fail -/

/-- Keys that went down and came up, as the journal has them. -/
def keyPairs (name : String) (keys : List String) : List PageEvent :=
  keys.flatMap fun key => [.key name key .down, .key name key .up]

theorem keyPairs_append_singleton (name : String) (keys : List String) (key : String) :
    keyPairs name (keys ++ [key]) =
      keyPairs name keys ++ [.key name key .down, .key name key .up] := by
  rw [keyPairs, List.flatMap_append]
  rfl

/-- The element to which keys go that are to be pressed on a page: the one with the focus, or one
that the selector names. -/
def Page.Aims (p : Page) (target : ElementId) (name : String) : Option String → Prop
  | none => p.active = some target ∧ p.Knows target name
  | some selector => name ∈ alternatives selector

/-- A step has focused its element and pressed some of its keys, each of them down and up, and it
has done nothing else. -/
structure Step.Pressed (step : Step) (p₀ : Page) (target : ElementId) (name : String)
    (pressed left : List String) (delay : Nat) (p : Page) : Prop where
  asked : ∃ given, step = .keySequence given (pressed ++ left) delay ∧ p₀.Aims target name given
  knows : p.Knows target name
  journal : p.journal = p₀.journal ++ .focus name :: keyPairs name pressed

/-- How a step can fail that began at a moment on a page, and what it has done then. -/
def Step.FailsBy (step : Step) (m₀ : Moment) (p₀ : Page) (m : Moment) :
    ActionError → Page → Prop
  | .invalid _, _ => False
  | .surface (.rejected _), _ => False
  | .surface (.unavailable _), _ => False
  | .interrupted reason, _ =>
    m₀.policy.interruptible = true ∧ m.stopping = true ∧ reason = stoppedByUser
  | .lookupTimeout selector budget, p =>
    step.search? m₀.policy = some (selector, budget) ∧ budget ≤ m.now - m₀.now ∧
      p.journal = p₀.journal
  | .noActiveElement, p =>
    (∃ keys delay, step = .keySequence none keys delay) ∧ p₀.active = none ∧ p = p₀
  | .surface (.detached element), p =>
    ∃ target name pressed key left delay, element = target.text ∧
      step.Pressed p₀ target name pressed (key :: left) delay p ∧
      pressed ≠ [] ∧ 0 < delay ∧ p.find? target = none

/-- What is left of a step that waits fits the step and what it has done. -/
def Step.Leaves (step : Step) (m₀ : Moment) (p₀ p : Page) : Hold → Prop
  | .looking l deed =>
    step.search? m₀.policy = some (l.selector, l.budget) ∧ l.since = m₀.now ∧
      p.journal = p₀.journal ∧
      ∀ keys delay, deed = .press keys delay → step = .keySequence (some l.selector) keys delay
  | .pressing target left delay =>
    ∃ name pressed, step.Pressed p₀ target name pressed left delay p ∧ pressed ≠ [] ∧ 0 < delay
  | .settling => True

/-- A step is finished, or waits with what fits it. -/
def Step.Goes (step : Step) (m₀ : Moment) (p₀ : Page) : Progress → Page → Prop
  | .finished, _ => True
  | .waiting _ hold, p => step.Leaves m₀ p₀ p hold

/-- Changes from outside leave what is left of a step as it was. -/
theorem Step.Leaves.apply {step : Step} {m₀ : Moment} {p₀ p : Page} {hold : Hold}
    (h : step.Leaves m₀ p₀ p hold) (change : Change) :
    step.Leaves m₀ p₀ (change.apply p) hold := by
  cases hold with
  | looking l deed =>
    obtain ⟨hsearch, hsince, hjournal, hdeed⟩ := h
    exact ⟨hsearch, hsince, (change.journal_apply p).trans hjournal, hdeed⟩
  | pressing target left delay =>
    obtain ⟨name, pressed, hp, hsome⟩ := h
    refine ⟨name, pressed, ⟨hp.asked, hp.knows.apply change, ?_⟩, hsome⟩
    exact (change.journal_apply p).trans hp.journal
  | settling => trivial

/-! ## Steps on a page -/

section Steps

variable {step : Step} {m₀ m : Moment} {p₀ p : Page} {target : ElementId}

/-- An effect on an element that is there succeeds, and the element stays there. -/
theorem meets_effect {α : Type} {capability : Capability Page α}
    {q : ActionError → Page → Prop}
    (hk : Capability.Keeps (fun p q => p.layout = q.layout) capability)
    (hc : ∃ effect, capability = onElement target effect) (h : (p.find? target).isSome) :
    Act.Meets (fun _ q => (q.find? target).isSome) q ((Act.call capability).run p) := by
  obtain ⟨a, left, hr, hleft⟩ := exists_run hk hc h
  rw [hr]
  exact hleft

section Waits

variable {P : Progress → Page → Prop} {Q : ActionError → Page → Prop}

/-- Keys are pressed one after another as long as their element is there. All of them are pressed,
or those that are left wait for their turns after at least one, or the element is gone then. -/
theorem meets_press_of {name : String} {pressed left : List String} {delay : Nat}
    (h : step.Pressed p₀ target name pressed left delay p)
    (hthere : (p.find? target).isSome ∨ (pressed ≠ [] ∧ 0 < delay))
    (hall : ∀ {pressed q}, step.Pressed p₀ target name pressed [] delay q → P .finished q)
    (hwait : ∀ {pressed left q}, step.Pressed p₀ target name pressed left delay q →
      pressed ≠ [] → 0 < delay →
        Act.Meets P Q ((m.suspend delay (.pressing target left delay)).run q))
    (hgone : ∀ {pressed key left q}, step.Pressed p₀ target name pressed (key :: left) delay q →
      pressed ≠ [] → 0 < delay → q.find? target = none → Q (.surface (.detached target.text)) q) :
    Act.Meets P Q ((press m target delay left).run p) := by
  induction left generalizing pressed p with
  | nil => exact hall h
  | cons key left ih =>
    cases he : p.find? target with
    | none =>
      rw [he] at hthere
      obtain ⟨hne, hdelay⟩ := hthere.resolve_left Bool.false_ne_true
      rw [press_cons, Act.run_bind, run_stroke_of_none he]
      exact hgone h hne hdelay he
    | some e =>
      obtain ⟨hmem, hid⟩ := mem_of_find? he
      obtain rfl := h.knows.named e hmem hid
      have hnext : step.Pressed p₀ target e.selector (pressed ++ [key]) left delay
          ((p.record (.key e.selector key .down)).record (.key e.selector key .up)) := by
        constructor
        case asked =>
          rw [List.append_assoc]
          exact h.asked
        case knows => exact ⟨h.knows.handedOut, h.knows.named⟩
        case journal =>
          show p.journal ++ [_] ++ [_] = _
          rw [h.journal, keyPairs_append_singleton, List.append_assoc, List.append_assoc]
          rfl
      rw [press_cons, Act.run_bind, run_stroke he]
      dsimp only
      by_cases hd : delay = 0
      · rw [if_pos hd]
        exact ih hnext (Or.inl (Option.isSome_of_eq_some he))
      · rw [if_neg hd]
        refine hwait hnext ?_ (Nat.pos_of_ne_zero hd)
        exact List.append_ne_nil_of_right_ne_nil pressed (List.cons_ne_nil key [])

/-- Keys are pressed on an element that is there once it has the focus. -/
theorem run_perform_press {name : String} {keys : List String} {delay : Nat}
    (h : (p.find? target).isSome) (hknows : p.Knows target name) (hjournal : p.journal = p₀.journal)
    (hasked : ∃ given, step = .keySequence given keys delay ∧ p₀.Aims target name given) :
    ∃ q, ((Deed.press keys delay).perform m target).run p =
        (press m target delay keys : Act Page Progress).run q ∧
      step.Pressed p₀ target name [] keys delay q ∧ (q.find? target).isSome := by
  obtain ⟨e, he⟩ := Option.isSome_iff_exists.1 h
  obtain ⟨hmem, hid⟩ := mem_of_find? he
  obtain rfl := hknows.named e hmem hid
  have hfocus : (Act.call (Surface.focus target)).run p =
      (.ok (), { p with active := some target }.record (.focus e.selector)) := run_onElement _ he
  refine ⟨{ p with active := some target }.record (.focus e.selector), ?_, ?_, h⟩
  · rw [Deed.perform, Act.run_bind, hfocus]
  · refine ⟨hasked, ⟨hknows.handedOut, hknows.named⟩, ?_⟩
    show p.journal ++ [_] = _
    rw [hjournal]
    rfl

/-- A search acts at once on an element that is there, or it waits, or its time is over. -/
theorem meets_ask_of {l : Lookup} {deed : Deed}
    (hover : l.budget ≤ m.now - l.since → Q (.lookupTimeout l.selector l.budget) p)
    (hwait : Act.Meets P Q ((m.suspend m.policy.pollStep (.looking l deed)).run
      { p with queries := p.queries + 1 }))
    (hfound : ∀ e, p.lookup m.now l.selector = some e → e.selector ∈ alternatives l.selector →
      Act.Meets P Q ((deed.perform m e.id).run { p with queries := p.queries + 1 })) :
    Act.Meets P Q ((l.ask m deed).run p) := by
  by_cases hb : m.now - l.since < l.budget
  · rw [run_search hb]
    cases hl : p.lookup m.now l.selector with
    | none => exact hwait
    | some e =>
      have hmatch := List.find?_some hl
      rw [Element.matches, Bool.and_eq_true] at hmatch
      exact hfound e hl (List.contains_iff_mem.1 hmatch.2)
  · rw [Lookup.ask, if_neg hb]
    exact hover (Nat.not_lt.1 hb)

end Waits

variable (hm : m.policy = m₀.policy)
include hm

theorem meets_interrupted (hi : m.interrupts = true) :
    Act.Meets (step.Goes m₀ p₀) (step.FailsBy m₀ p₀ m) ((Act.interrupted).run p) := by
  rw [Moment.interrupts, Bool.and_eq_true, hm] at hi
  exact ⟨hi.1, hi.2, rfl⟩

theorem meets_suspend {ms : Nat} {hold : Hold} (h : step.Leaves m₀ p₀ p hold) :
    Act.Meets (step.Goes m₀ p₀) (step.FailsBy m₀ p₀ m) ((m.suspend ms hold).run p) := by
  unfold Moment.suspend
  by_cases hi : m.interrupts = true
  · rw [if_pos hi]
    exact meets_interrupted hm hi
  · rw [if_neg hi]
    exact h

theorem meets_settle {ms : Nat} :
    Act.Meets (step.Goes m₀ p₀) (step.FailsBy m₀ p₀ m) ((m.settle ms).run p) := by
  unfold Moment.settle
  split
  · trivial
  · exact meets_suspend hm trivial

/-- Keys are pressed one after another as long as their element is there; once it is gone, at least
one key has been pressed and the others wait for their turns. -/
theorem meets_press {name : String} {pressed left : List String} {delay : Nat}
    (h : step.Pressed p₀ target name pressed left delay p)
    (hthere : (p.find? target).isSome ∨ (pressed ≠ [] ∧ 0 < delay)) :
    Act.Meets (step.Goes m₀ p₀) (step.FailsBy m₀ p₀ m) ((press m target delay left).run p) :=
  meets_press_of h hthere (fun _ => trivial)
    (fun hp hne hdelay => meets_suspend hm ⟨name, _, hp, hne, hdelay⟩)
    fun hp hne hdelay hgone => ⟨target, name, _, _, _, delay, rfl, hp, hne, hdelay, hgone⟩

/-- What is done with an element that is there succeeds, until keys wait for their turns. -/
theorem meets_perform {name : String} {deed : Deed} (h : (p.find? target).isSome)
    (hknows : p.Knows target name) (hjournal : p.journal = p₀.journal)
    (hdeed : ∀ keys delay, deed = .press keys delay →
      ∃ given, step = .keySequence given keys delay ∧ p₀.Aims target name given) :
    Act.Meets (step.Goes m₀ p₀) (step.FailsBy m₀ p₀ m) ((deed.perform m target).run p) := by
  have focus := fun {q : Page} (h : (q.find? target).isSome) =>
    meets_effect (q := step.FailsBy m₀ p₀ m) (keeps_layout.focus target) ⟨_, rfl⟩ h
  have write := fun {q : Page} (text : String) (h : (q.find? target).isSome) =>
    meets_effect (q := step.FailsBy m₀ p₀ m) (keeps_layout.write target text) ⟨_, rfl⟩ h
  cases deed with
  | nothing => trivial
  | click =>
    exact Act.meets_bind (meets_effect (keeps_layout.click target) ⟨_, rfl⟩ h) fun _ _ _ => trivial
  | focus => exact Act.meets_bind (focus h) fun _ _ _ => trivial
  | type text clear =>
    refine Act.meets_bind (focus h) fun _ q hq => ?_
    refine Act.meets_bind (r := fun _ r => (r.find? target).isSome) ?_ fun _ r hr => ?_
    · cases clear with
      | false => exact hq
      | true => exact write "" hq
    · refine Act.meets_bind (meets_effect (keeps_layout.read target) ⟨_, rfl⟩ hr) fun _ _ hs => ?_
      exact Act.meets_bind (write _ hs) fun _ _ _ => trivial
  | paste text =>
    refine Act.meets_bind (focus h) fun _ q hq => ?_
    exact Act.meets_bind (write text hq) fun _ _ _ => trivial
  | setValue value => exact Act.meets_bind (write value h) fun _ _ _ => trivial
  | highlight duration =>
    refine Act.meets_bind (meets_effect (keeps_layout.highlight target duration) ⟨_, rfl⟩ h) ?_
    exact fun _ _ _ => meets_settle hm
  | press keys delay =>
    obtain ⟨q, hrun, hpressed, hq⟩ := run_perform_press h hknows hjournal (hdeed keys delay rfl)
    rw [hrun]
    exact meets_press hm hpressed (Or.inl hq)

/-- A search finds an element that is there and acts on it at once, or it waits, or its time is
over. -/
theorem meets_ask {l : Lookup} {deed : Deed} (hp : p.Sound)
    (h : step.Leaves m₀ p₀ p (.looking l deed)) :
    Act.Meets (step.Goes m₀ p₀) (step.FailsBy m₀ p₀ m) ((l.ask m deed).run p) := by
  obtain ⟨hsearch, hsince, hjournal, hdeed⟩ := h
  refine meets_ask_of ?_ ?_ ?_
  · exact fun hover => ⟨hsearch, hsince ▸ hover, hjournal⟩
  · exact meets_suspend hm ⟨hsearch, hsince, hjournal, hdeed⟩
  · intro e hfound hnamed
    have hmem := List.mem_of_find?_eq_some hfound
    have hknows : Page.Knows { p with queries := p.queries + 1 } e.id e.selector :=
      ⟨(hp.knows hmem).handedOut, (hp.knows hmem).named⟩
    refine meets_perform hm (isSome_find?_of_lookup hfound) hknows hjournal ?_
    exact fun keys delay hpress => ⟨_, hdeed keys delay hpress, hnamed⟩

/-- What is left of a step goes on. -/
theorem meets_resume {hold : Hold} (hp : p.Sound) (h : step.Leaves m₀ p₀ p hold) :
    Act.Meets (step.Goes m₀ p₀) (step.FailsBy m₀ p₀ m) ((hold.resume m).run p) := by
  cases hold with
  | looking l deed => exact meets_ask hm hp h
  | pressing target left delay =>
    obtain ⟨name, pressed, hpressed, hsome⟩ := h
    exact meets_press hm hpressed (Or.inr hsome)
  | settling => trivial

omit hm

/-- A step that was decoded begins. -/
theorem meets_start {raw : Instruction} (hd : raw.DecodesTo step) (hp : p₀.Sound) :
    Act.Meets (step.Goes m₀ p₀) (step.FailsBy m₀ p₀ m₀) ((step.start m₀).run p₀) := by
  cases hsearch : step.search? m₀.policy with
  | some search =>
    obtain ⟨selector, budget⟩ := search
    obtain ⟨deed, hstart, -, hdeed⟩ := Step.start_of_search (σ := Page) hd hsearch
    rw [hstart]
    exact meets_ask rfl hp ⟨hsearch, rfl, rfl, hdeed⟩
  | none =>
    -- a step without a search waits, scrolls, or presses keys where the focus is
    cases step with
    | wait ms => exact meets_settle rfl
    | scroll x y behavior =>
      exact Act.meets_bind (r := fun _ _ => True) trivial fun _ _ _ => meets_settle rfl
    | keySequence given keys delay =>
      cases given with
      | some selector => cases hsearch
      | none =>
        have hactive : (Act.call Surface.active).run p₀ = (.ok p₀.active, p₀) := rfl
        simp only [Step.start, hd.keys, Option.filter_none, Act.run_bind, hactive,
          Bool.false_eq_true, if_false]
        cases ha : p₀.active with
        | none => exact ⟨⟨keys, delay, rfl⟩, ha, rfl⟩
        | some target =>
          have hfocused := hp.focused target ha
          obtain ⟨e, hmem, rfl⟩ := List.mem_map.1 hfocused
          refine meets_perform rfl (isSome_find?_iff.2 hfocused) (hp.knows hmem) rfl ?_
          intro _ _ hpress
          cases hpress
          exact ⟨none, rfl, ha, hp.knows hmem⟩
    | _ => cases hsearch

end Steps

/-! ## Whole courses -/

namespace Step.Course

variable {step : Step} {m₀ m : Moment} {p₀ : Page} {x : Except ActionError Progress × Page}

/-- The policy does not change. -/
theorem policy (h : step.Course m₀ p₀ m x) : m.policy = m₀.policy := by
  induction h with
  | begun => rfl
  | changed _ _ ih => exact ih
  | later _ _ hpolicy ih => exact hpolicy.trans ih
  | resumed _ _ ih => exact ih
  | interrupted _ _ ih => exact ih

/-- The handles stay apart, and the focus on an element that is there. -/
theorem sound (h : step.Course m₀ p₀ m x) (hp : p₀.Sound) : x.2.Sound := by
  induction h with
  | begun => exact hp.acted (keeps_start keeps_acted.frames m₀ step p₀)
  | changed _ change ih => exact ih.apply change
  | later _ _ _ ih => exact ih
  | resumed _ _ ih => exact ih.acted (keeps_resume keeps_acted.frames _ _ _)
  | interrupted _ _ ih => exact ih

/-- Whatever happens while a step waits, what is left of it fits what it has done, and it fails in
one of a few ways. -/
theorem meets {raw : Instruction} (hd : raw.DecodesTo step) (hp : p₀.Sound)
    (h : step.Course m₀ p₀ m x) : Act.Meets (step.Goes m₀ p₀) (step.FailsBy m₀ p₀ m) x := by
  induction h with
  | begun => exact meets_start hd hp
  | changed _ change ih => exact Leaves.apply ih change
  | later _ _ _ ih => exact ih
  | resumed h _ ih => exact meets_resume h.policy (h.sound hp) ih
  | interrupted h hi ih => exact meets_interrupted h.policy hi

end Step.Course

/-- **Failures.** A step that was decoded and begins on a page that is reached fails in one of a few
ways, whatever happens outside while it waits. -/
theorem failsBy_of_course {raw : Instruction} {step : Step} (hd : raw.DecodesTo step)
    {m₀ m : Moment} {p₀ p : Page} (hp : p₀.Reachable) {e : ActionError}
    (h : step.Course m₀ p₀ m (.error e, p)) : step.FailsBy m₀ p₀ m e p :=
  h.meets hd hp.sound

/-- The element is removed after the first of two keys, and another one is added under its selector:
the second key does not reach it. -/
theorem failsBy_of_course_removed :
    let raw : Instruction := [("action", .string "keySequence"), ("selector", .string "#a, #b"),
      ("keys", .array [.string "x", .string "y"])]
    let step : Step := .keySequence (some "#a, #b") ["x", "y"] 100
    let page : Page := (Change.add "#b" "" 0).apply {}
    let held : Page := ((step.start ⟨0, {}, false⟩).run page).2
    let left : Page := (Change.add "#b" "" 0).apply ((Change.remove "#b").apply held)
    raw.DecodesTo step ∧ page.Reachable ∧
      step.Course ⟨0, {}, false⟩ page ⟨100, {}, true⟩ (.error (.surface (.detached "el-1")), left) ∧
      step.FailsBy ⟨0, {}, false⟩ page ⟨100, {}, true⟩ (.surface (.detached "el-1")) left := by
  intro raw step page held left
  have hd : raw.DecodesTo step := ⟨.keySequence, rfl, rfl⟩
  have hp : page.Reachable := Reachable.empty.changed _
  have hbegun : step.Course ⟨0, {}, false⟩ page ⟨0, {}, false⟩
      (.ok (.waiting 100 (.pressing ⟨"el-1"⟩ ["y"] 100)), held) := .begun
  have hwaits : step.Course ⟨0, {}, false⟩ page ⟨100, {}, true⟩
      (.ok (.waiting 100 (.pressing ⟨"el-1"⟩ ["y"] 100)), left) :=
    ((hbegun.changed _).changed _).later (Nat.zero_le 100) rfl
  have hgone : left.find? ⟨"el-1"⟩ = none := by decide +kernel
  have hdown : (Act.call (Surface.key ⟨"el-1"⟩ "y" .down)).run left =
      (.error (.surface (.detached "el-1")), left) := run_onElement_of_none _ hgone
  have hfails := hwaits.resumed (Nat.le_refl 100)
  rw [Hold.resume, press, Act.run_bind, hdown] at hfails
  exact ⟨hd, hp, hfails, failsBy_of_course hd hp hfails⟩

end FormRehearsal
