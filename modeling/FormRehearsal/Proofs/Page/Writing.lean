/-
# What steps write

Some steps give a new value to the element of their selector, and some move the focus there. What a
step does to what shows of a page can be told without the page: `View.carry`. On a page whose
elements have selectors of their own, a step that searches for one of them by a selector that stands
for itself alone changes nothing while it looks for its element, and has changed what it will as
soon as it has found it, though it may wait after that.

* `value_foldl_carry`, `focused_foldl_carry` : what shows after some steps;
* `stands_perform` : what is done with the element that was found;
* `stands_start`, `stands_resume` : how far a step has come that begins or goes on;
* `Becomes.writtenBy` : the elements of a page after some steps.
-/
import FormRehearsal.Proofs.Page.Replay
import FormRehearsal.Proofs.Page.Selectors

namespace FormRehearsal

open Page

/-! ## Values and the focus after steps -/

/-- What a step makes of the value of its element. -/
def Step.change : Step → String → String
  | type _ text clear, value => if clear then text else value ++ text
  | paste _ text, _ => text
  | setValue _ text, _ => text
  | _, value => value

/-- The selector to whose element a step moves the focus. -/
def Step.focuses? : Step → Option String
  | type s .. | paste s _ | focus s => some s
  | keySequence s .. => s
  | _ => none

/-- What the steps of a selector make of a value, one after another. -/
def written (selector : String) (steps : List Step) (value : String) : String :=
  (steps.filter (·.selector = some selector)).foldl (fun value step => step.change value) value

/-- The selector to whose element the last step moves the focus that moves it. -/
def lastFocus? (steps : List Step) : Option String := (steps.filterMap (·.focuses?)).getLast?

namespace View

/-- What shows after a step was carried out. -/
def carry (v : View) (step : Step) : View where
  value selector := (v.value selector).map fun value =>
    if step.selector = some selector then step.change value else value
  focused := step.focuses?.or v.focused

/-- The value of a selector after some steps is what the steps of the selector make of it. -/
theorem value_foldl_carry (v : View) (steps : List Step) (selector : String) :
    (steps.foldl carry v).value selector = (v.value selector).map (written selector steps) := by
  induction steps generalizing v with
  | nil => exact Option.map_id'.symm
  | cons step steps ih =>
    rw [List.foldl_cons, ih, carry, Option.map_map]
    congr 1
    funext value
    by_cases hs : step.selector = some selector
    · simp [written, hs]
    · simp [written, hs]

/-- The focus after some steps is where the last one moved it that did. -/
theorem focused_foldl_carry (v : View) (steps : List Step) :
    (steps.foldl carry v).focused = (lastFocus? steps).or v.focused := by
  induction steps generalizing v with
  | nil => rfl
  | cons step steps ih =>
    rw [List.foldl_cons, ih, carry, lastFocus?, lastFocus?, List.filterMap_cons]
    cases step.focuses? with
    | none => rfl
    | some s => simp [List.getLast?_cons]

/-- A step changes the value of its element to what it makes of it. -/
theorem carry_eq {v : View} {step : Step} {s old : String} (hs : step.selector = some s)
    (hv : v.value s = some old) :
    v.carry step =
      ⟨fun x => if s = x then some (step.change old) else v.value x,
        step.focuses?.or v.focused⟩ := by
  have hvalue : (v.carry step).value =
      fun x => if s = x then some (step.change old) else v.value x := by
    funext x
    by_cases hx : s = x
    · subst hx
      simp [carry, hs, hv]
    · simp [carry, hs, hx]
  rw [← hvalue]
  rfl

/-- A step that makes nothing else of a value changes none. -/
theorem carry_of_change_eq {step : Step} (h : ∀ value, step.change value = value) (v : View) :
    v.carry step = ⟨v.value, step.focuses?.or v.focused⟩ := by
  simp only [carry, h, ite_self, Option.map_id']

/-- A step that does not move the focus either changes nothing. -/
theorem carry_eq_self {step : Step} (h : ∀ value, step.change value = value)
    (hf : step.focuses? = none) (v : View) : v.carry step = v := by
  rw [carry_of_change_eq h, hf]
  rfl

/-- Of two values that an element is given one after another, the second one shows. -/
theorem enter_write_write (v : View) (s a b : String) :
    (v.enter (.write s a)).enter (.write s b) = v.enter (.write s b) := by
  simp only [enter]
  congr 1
  funext x
  by_cases hx : s = x
  · simp [hx]
  · simp [hx]

end View

/-! ## What pages become -/

namespace Page

/-- A page comes to show something else, with the same elements. -/
structure Becomes (p : Page) (v : View) (q : Page) : Prop where
  layout : p.layout = q.layout
  view : q.view = v

variable {p q : Page} {id : ElementId} {e : Element}

theorem Becomes.refl (p : Page) : p.Becomes p.view p := ⟨rfl, rfl⟩

/-- What shows of an element that has a selector of its own is its value. -/
theorem valueOf_of_mem (hd : p.selectors.Nodup) (he : e ∈ p.elements) :
    p.valueOf e.selector = some e.value := by
  obtain ⟨found, hfound⟩ : ∃ found, p.named? e.selector = some found := by
    rw [← Option.isSome_iff_exists, named?, List.find?_isSome]
    exact ⟨e, he, decide_eq_true rfl⟩
  have hmem := List.mem_of_find?_eq_some hfound
  have hselector : found.selector = e.selector := by simpa using List.find?_some hfound
  rw [valueOf, hfound, List.inj_on_of_nodup_map hd hmem he hselector]
  rfl

/-- An element that is there gets the focus. -/
theorem exists_run_focus (he : p.find? id = some e) :
    ∃ q, (Act.call (Surface.focus id)).run p = (.ok (), q) ∧
      p.Becomes (p.view.enter (.focus e.selector)) q ∧ q.find? id = some e :=
  ⟨_, run_onElement _ he, ⟨rfl, view_focus he⟩, he⟩

/-- An element that is there gets a value. -/
theorem exists_run_write (hd : p.selectors.Nodup) (he : p.find? id = some e) (text : String) :
    ∃ q, (Act.call (Surface.write id text)).run p = (.ok (), q) ∧
      p.Becomes (p.view.enter (.write e.selector text)) q ∧
      q.find? id = some { e with value := text } := by
  refine ⟨_, run_onElement _ he, ⟨(layout_edit id text p.elements).symm, view_edit hd he text⟩, ?_⟩
  have hedit : (edit id (fun e => { e with value := text }) p.elements).find? (·.id = id) =
      (p.elements.find? (·.id = id)).map fun e => { e with value := text } :=
    find?_edit_self (f := fun e => { e with value := text }) (fun _ => rfl) p.elements
  exact hedit.trans (congrArg _ he)

/-- The elements and the focus of a page are those of another one after some steps. -/
structure WrittenBy (start : Page) (steps : List Step) (p : Page) : Prop where
  elements : p.elements =
    start.elements.map fun e => { e with value := written e.selector steps e.value }
  focused : p.focusedSelector = (lastFocus? steps).or start.focusedSelector

/-- What shows of elements with selectors of their own decides what they are. -/
theorem Becomes.writtenBy {start : Page} {steps : List Step} (hd : start.selectors.Nodup)
    (h : start.Becomes (steps.foldl View.carry start.view) p) : start.WrittenBy steps p := by
  have hvalue : ∀ s, p.valueOf s = (start.valueOf s).map (written s steps) := by
    intro s
    calc p.valueOf s
      _ = (steps.foldl View.carry start.view).value s := by rw [← h.view]; rfl
      _ = (start.valueOf s).map (written s steps) := View.value_foldl_carry ..
  have hdp : p.selectors.Nodup := selectors_congr h.layout ▸ hd
  -- an element can be told from its handle, its selector, its instant and what shows of it
  let build : ElementId × String × Nat → Element := fun x =>
    ⟨x.1, x.2.1, (p.valueOf x.2.1).getD "", x.2.2⟩
  have hp : p.layout.map build = p.elements := by
    rw [Page.layout, List.map_map]
    refine (List.map_congr_left fun e he => ?_).trans (List.map_id _)
    show (⟨e.id, e.selector, (p.valueOf e.selector).getD "", e.visibleFrom⟩ : Element) = e
    rw [valueOf_of_mem hdp he]
    rfl
  have hstart : start.layout.map build =
      start.elements.map fun e => { e with value := written e.selector steps e.value } := by
    rw [Page.layout, List.map_map]
    refine List.map_congr_left fun e he => ?_
    show (⟨e.id, e.selector, (p.valueOf e.selector).getD "", e.visibleFrom⟩ : Element) = _
    rw [hvalue, valueOf_of_mem hd he]
    rfl
  constructor
  case elements => rw [← hp, ← h.layout, hstart]
  case focused =>
    show p.view.focused = _
    rw [h.view, View.focused_foldl_carry]
    rfl

end Page

/-! ## How far steps have come -/

/-- A step that began on a page has come to another one: it is still looking for its element and
nothing shows of it, or all shows that it does. -/
def Step.Stands (step : Step) (p : Page) : Progress → Page → Prop
  | .waiting _ (.looking l deed), q =>
    p.Becomes p.view q ∧ step.selector = some l.selector ∧ deed = step.deed
  | _, q => p.Becomes (p.view.carry step) q

/-- A step that comes to something without failing stands there. -/
abbrev Step.ComesToStand (step : Step) (p : Page) : Except ActionError Progress × Page → Prop :=
  Act.Meets (step.Stands p) fun _ _ => True

section Steps

variable {step : Step} {m : Moment} {p q : Page}

/-- What a step comes to depends on the page on which it began only by what shows of it. -/
theorem Step.ComesToStand.of_becomes (hq : p.Becomes p.view q)
    {x : Except ActionError Progress × Page} (h : step.ComesToStand q x) :
    step.ComesToStand p x := by
  have becomes : ∀ {v r}, q.Becomes v r → p.Becomes v r :=
    fun h => ⟨hq.layout.trans h.layout, h.view⟩
  obtain ⟨e | progress, r⟩ := x
  · trivial
  · cases progress with
    | finished => exact becomes (hq.view ▸ h)
    | waiting wake hold =>
      cases hold with
      | looking l deed => exact ⟨becomes (hq.view ▸ h.1), h.2⟩
      | pressing target keys delay => exact becomes (hq.view ▸ h)
      | settling => exact becomes (hq.view ▸ h)

theorem stands_suspend {ms : Nat} {hold : Hold} (h : ∀ wake, step.Stands p (.waiting wake hold) q) :
    step.ComesToStand p ((m.suspend ms hold).run q) := by
  unfold Moment.suspend
  split
  · trivial
  · exact h _

theorem stands_settle {ms : Nat} (h : p.Becomes (p.view.carry step) q) :
    step.ComesToStand p ((m.settle ms).run q) := by
  unfold Moment.settle
  split
  · exact h
  · exact stands_suspend fun _ => h

/-- Keys that are pressed do not show. -/
theorem stands_press {target : ElementId} {delay : Nat} (keys : List String)
    (h : p.Becomes (p.view.carry step) q) :
    step.ComesToStand p ((press m target delay keys).run q) := by
  induction keys generalizing q with
  | nil => exact h
  | cons key keys ih =>
    cases he : q.find? target with
    | none =>
      rw [press_cons, Act.run_bind, run_stroke_of_none he]
      trivial
    | some e =>
      have hnext : p.Becomes (p.view.carry step)
          ((q.record (.key e.selector key .down)).record (.key e.selector key .up)) :=
        ⟨h.layout, h.view⟩
      rw [press_cons, Act.run_bind, run_stroke he]
      dsimp only
      split
      · exact ih hnext
      · exact stands_suspend fun _ => hnext

/-- Keys are pressed on an element that is there once it has the focus. -/
theorem stands_perform_press {e : Element} (he : p.find? e.id = some e) {keys : List String}
    {delay : Nat} (hstep : p.view.carry step = p.view.enter (.focus e.selector)) :
    step.ComesToStand p (((Deed.press keys delay).perform m e.id).run p) := by
  obtain ⟨q, hfocus, hq, -⟩ := exists_run_focus he
  rw [Deed.perform, Act.run_bind, hfocus]
  exact stands_press keys (hstep ▸ hq)

/-- What a step does with its element shows at once. -/
theorem stands_perform {e : Element} (hd : p.selectors.Nodup) (he : p.find? e.id = some e)
    (hs : step.selector = some e.selector) :
    step.ComesToStand p ((step.deed.perform m e.id).run p) := by
  have hvalue : p.view.value e.selector = some e.value := valueOf_of_mem hd (mem_of_find? he).1
  have hcarry := View.carry_eq hs hvalue
  cases step with
  | wait ms => cases hs
  | scroll x y behavior => cases hs
  | waitFor s budget => exact ⟨rfl, (View.carry_eq_self (fun _ => rfl) rfl _).symm⟩
  | click s =>
    have hclick : (Act.call (Surface.click e.id)).run p = (.ok (), p.record (.click e.selector)) :=
      run_onElement _ he
    rw [Step.deed, Deed.perform, Act.run_bind, hclick]
    exact ⟨rfl, (View.carry_eq_self (fun _ => rfl) rfl _).symm⟩
  | highlight s duration =>
    have hmark : (Act.call (Surface.highlight e.id duration)).run p =
        (.ok (), p.record (.highlight e.selector duration)) := run_onElement _ he
    rw [Step.deed, Deed.perform, Act.run_bind, hmark]
    exact stands_settle ⟨rfl, (View.carry_eq_self (fun _ => rfl) rfl _).symm⟩
  | focus s =>
    cases hs
    obtain ⟨q, hfocus, hq, -⟩ := exists_run_focus he
    rw [Step.deed, Deed.perform, Act.run_bind, hfocus]
    refine ⟨hq.layout, hq.view.trans ?_⟩
    rw [View.carry_of_change_eq fun _ => rfl]
    rfl
  | keySequence given keys delay =>
    obtain rfl : given = some e.selector := hs
    refine stands_perform_press he ?_
    rw [View.carry_of_change_eq fun _ => rfl]
    rfl
  | setValue s text =>
    cases hs
    obtain ⟨q, hwrite, hq, -⟩ := exists_run_write hd he text
    rw [Step.deed, Deed.perform, Act.run_bind, hwrite]
    exact ⟨hq.layout, hq.view.trans hcarry.symm⟩
  | paste s text =>
    cases hs
    obtain ⟨q, hfocus, hq, heq⟩ := exists_run_focus he
    obtain ⟨r, hwrite, hr, -⟩ := exists_run_write (selectors_congr hq.layout ▸ hd) heq text
    rw [Step.deed, Deed.perform, Act.run_bind, hfocus]
    dsimp only
    rw [Act.run_bind, hwrite]
    refine ⟨hq.layout.trans hr.layout, hr.view.trans ?_⟩
    rw [hq.view, hcarry]
    rfl
  | type s text clear =>
    cases hs
    obtain ⟨q, hfocus, hq, heq⟩ := exists_run_focus he
    have hdq : q.selectors.Nodup := selectors_congr hq.layout ▸ hd
    obtain ⟨r, hclear, hr, her⟩ : ∃ r,
        (Act.when clear (Act.call (Surface.write e.id ""))).run q = (.ok (), r) ∧
          q.Becomes (if clear then q.view.enter (.write e.selector "") else q.view) r ∧
          r.find? e.id = some { e with value := if clear then "" else e.value } := by
      cases clear with
      | false => exact ⟨q, rfl, Becomes.refl q, heq⟩
      | true => exact exists_run_write hdq heq ""
    have hread : (Act.call (Surface.read e.id)).run r =
        (.ok (if clear then "" else e.value), r) := run_onElement _ her
    obtain ⟨t, hwrite, ht, -⟩ := exists_run_write (selectors_congr hr.layout ▸ hdq) her
      ((if clear then "" else e.value) ++ text)
    simp only [Step.deed, Deed.perform, Act.run_bind, hfocus, hclear, hread, hwrite]
    refine ⟨hq.layout.trans (hr.layout.trans ht.layout), ht.view.trans ?_⟩
    rw [hr.view, hcarry]
    cases clear with
    | false =>
      rw [if_neg Bool.false_ne_true, if_neg Bool.false_ne_true, hq.view]
      rfl
    | true =>
      rw [if_pos rfl, if_pos rfl, View.enter_write_write, hq.view, String.empty_append]
      rfl

variable (hd : p.selectors.Nodup) (hsingle : ∀ s, step.selector = some s → Single s)
include hd hsingle

/-- A step that looks for its element finds that of its selector, and does with it what it will. -/
theorem stands_ask {l : Lookup} (hq : q.Sound) (hbecomes : p.Becomes p.view q)
    (hs : step.selector = some l.selector) :
    step.ComesToStand p ((l.ask m step.deed).run q) := by
  have hqueried : p.Becomes p.view { q with queries := q.queries + 1 } :=
    ⟨hbecomes.layout, hbecomes.view⟩
  refine meets_ask_of (fun _ => trivial) ?_ fun e hfound hnamed => ?_
  · exact stands_suspend fun _ => ⟨hqueried, hs, rfl⟩
  · rw [(hsingle _ hs).alternatives_eq, List.mem_singleton] at hnamed
    have hdq : q.selectors.Nodup := selectors_congr hbecomes.layout ▸ hd
    have he : q.find? e.id = some e := hq.find?_id (List.mem_of_find?_eq_some hfound)
    exact Step.ComesToStand.of_becomes hqueried (stands_perform hdq he (hs.trans (by rw [hnamed])))

/-- A step goes on with what is left of it. -/
theorem stands_resume {hold : Hold} {wake : Nat} (hq : q.Sound)
    (h : step.Stands p (.waiting wake hold) q) :
    step.ComesToStand p ((hold.resume m).run q) := by
  cases hold with
  | looking l deed =>
    obtain ⟨hbecomes, hs, rfl⟩ := h
    exact stands_ask hd hsingle hq hbecomes hs
  | pressing target keys delay => exact stands_press keys h
  | settling => exact h

/-- A step that was decoded begins. -/
theorem stands_start {raw : Instruction} (hraw : raw.DecodesTo step) (hp : p.Sound) :
    step.ComesToStand p ((step.start m).run p) := by
  cases hsearch : step.search? m.policy with
  | some search =>
    obtain ⟨selector, budget⟩ := search
    rw [Step.start_eq_ask hraw hsearch]
    exact stands_ask hd hsingle hp (Becomes.refl p) (Step.selector_of_search hsearch)
  | none =>
    cases step with
    | wait ms => exact stands_settle ⟨rfl, (View.carry_eq_self (fun _ => rfl) rfl _).symm⟩
    | scroll x y behavior =>
      have hstill : p.view = p.view.carry (.scroll x y behavior) :=
        (View.carry_eq_self (fun _ => rfl) rfl _).symm
      refine Act.meets_bind (r := fun _ q => p.Becomes p.view q) ⟨rfl, rfl⟩ fun _ q hq => ?_
      exact stands_settle ⟨hq.layout, hq.view.trans hstill⟩
    | keySequence given keys delay =>
      cases given with
      | some selector => cases hsearch
      | none =>
        have hactive : (Act.call Surface.active).run p = (.ok p.active, p) := rfl
        simp only [Step.start, hraw.keys, Option.filter_none, Act.run_bind, hactive,
          Bool.false_eq_true, if_false]
        cases ha : p.active with
        | none => trivial
        | some target =>
          obtain ⟨e, hmem, rfl⟩ := List.mem_map.1 (hp.focused target ha)
          have he := hp.find?_id hmem
          have hfocused : p.view.focused = some e.selector := by
            show p.active.bind p.selectorOf = _
            rw [ha]
            exact congrArg (Option.map _) he
          -- the focus goes where it is
          refine stands_perform_press he ?_
          rw [View.carry_of_change_eq fun _ => rfl, hfocused]
          rfl
    | _ => cases hsearch

end Steps

end FormRehearsal
