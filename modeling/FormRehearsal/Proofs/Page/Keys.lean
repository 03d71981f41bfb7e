/-
# Keys that are released

A key that goes down comes up at once, before anything else is entered in the journal: nothing can
come between, since a step neither waits nor fails there. A step that presses keys may be cut short
between two of them. What it has entered in the journal then is that its element got the focus, and
the first of its keys; or nothing, if it was still looking for its element.

* `frames_releases` : steps release the keys that they press;
* `meets_pressing`, `meets_seeking` : keys are pressed, and an element is looked for before that;
* `Step.Course.entered` : what a step that presses keys has entered in the journal, however far it
  has come.
-/
import FormRehearsal.Proofs.Page.Course

namespace FormRehearsal

open Page

/-! ## Pairs of entries -/

/-- An entry of a key that goes down or comes up. -/
def PageEvent.IsKey : PageEvent → Prop
  | .key .. => True
  | _ => False

/-- The entries of keys form pairs: a key goes down, and the same key comes up right after it on the
same element. -/
inductive Paired : List PageEvent → Prop where
  | nil : Paired []
  | other {event : PageEvent} {entries : List PageEvent} (he : ¬ event.IsKey)
    (h : Paired entries) : Paired (event :: entries)
  | stroke (selector name : String) {entries : List PageEvent} (h : Paired entries) :
    Paired (.key selector name .down :: .key selector name .up :: entries)

theorem Paired.append {a b : List PageEvent} (ha : Paired a) (hb : Paired b) : Paired (a ++ b) := by
  induction ha with
  | nil => exact hb
  | other he _ ih => exact .other he ih
  | stroke selector name _ ih => exact .stroke selector name ih

/-- The keys that were pressed between two states of a page were released. -/
def Page.Releases (p q : Page) : Prop :=
  ∃ entries, q.journal = p.journal ++ entries ∧ Paired entries

namespace Page.Releases

variable {p q r : Page}

theorem of_eq (h : q.journal = p.journal) : p.Releases q :=
  ⟨[], h.trans (List.append_nil _).symm, .nil⟩

theorem refl (p : Page) : p.Releases p := of_eq rfl

theorem trans (h : p.Releases q) (h' : q.Releases r) : p.Releases r := by
  obtain ⟨a, ha, hpa⟩ := h
  obtain ⟨b, hb, hpb⟩ := h'
  exact ⟨a ++ b, by rw [hb, ha, List.append_assoc], hpa.append hpb⟩

/-- Something else is entered in the journal. -/
theorem record (p : Page) {event : PageEvent} (he : ¬ event.IsKey) : p.Releases (p.record event) :=
  ⟨[event], rfl, .other he .nil⟩

end Page.Releases

/-- **Strokes.** Steps release the keys that they press. -/
theorem frames_releases : Surface.Frames Page.Releases := by
  have refl := Page.Releases.refl
  constructor
  case refl => exact refl
  case trans => exact Page.Releases.trans
  case query => exact fun _ _ _ => .of_eq rfl
  case active => exact refl
  case click => exact fun _ => keeps_onElement refl fun _ p _ => .record p id
  case focus =>
    exact fun id => keeps_onElement refl fun _ p _ => .record { p with active := id } (·)
  case read => exact fun _ => keeps_onElement refl fun _ p _ => refl p
  case write =>
    exact fun id text => keeps_onElement refl fun _ p _ => .record
      { p with elements := edit id (fun e => { e with value := text }) p.elements } (·)
  case stroke =>
    intro element name p
    cases he : p.find? element with
    | none =>
      rw [run_stroke_of_none he]
      exact refl p
    | some e =>
      rw [run_stroke he]
      exact ⟨_, List.append_assoc .., .stroke e.selector name .nil⟩
  case scroll => exact fun _ _ _ p => .record p id
  case highlight => exact fun _ _ => keeps_onElement refl fun _ p _ => .record p id

/-! ## What a step has entered -/

/-- What a step that presses keys has entered in the journal: nothing, or that its element got the
focus and the first of its keys went down and came up, one after another. These are all of its keys
if it is finished. -/
inductive KeysEntered (p₀ : Page) (given : Option String) (keys : List String) (finished : Prop) :
    List PageEvent → Prop where
  | nothing (hn : ¬ finished) : KeysEntered p₀ given keys finished []
  | pressed {target : ElementId} {name : String} {pressed : List String}
    (haims : p₀.Aims target name given) (hfirst : pressed <+: keys) (hsome : pressed ≠ [])
    (hall : finished → pressed = keys) :
    KeysEntered p₀ given keys finished (.focus name :: keyPairs name pressed)

/-- What was entered in the journal between two states of a page is what a step that presses keys
enters. -/
def Page.PressesKeys (p₀ : Page) (given : Option String) (keys : List String) (finished : Prop)
    (p : Page) : Prop :=
  ∃ entries, p.journal = p₀.journal ++ entries ∧ KeysEntered p₀ given keys finished entries

/-- What is left of a step that presses keys: it looks for its element and has entered nothing, or
it has pressed some of its keys. -/
def Hold.KeysLeft (p₀ : Page) (given : Option String) (keys : List String) (delay : Nat)
    (p : Page) : Hold → Prop
  | .looking l deed => given = some l.selector ∧ deed = .press keys delay ∧ p.journal = p₀.journal
  | .pressing target left pause => ∃ name pressed,
    (Step.keySequence given keys delay).Pressed p₀ target name pressed left pause p ∧
      pressed ≠ [] ∧ 0 < pause
  | .settling => False

/-- A step that presses keys has pressed them all, or waits with what is left of it. -/
def Progress.KeysGo (p₀ : Page) (given : Option String) (keys : List String) (delay : Nat) :
    Progress → Page → Prop
  | .finished, p => p₀.PressesKeys given keys True p
  | .waiting _ hold, p => hold.KeysLeft p₀ given keys delay p

section Keys

variable {m₀ m : Moment} {p₀ p : Page} {given : Option String} {keys : List String} {delay : Nat}

theorem keys_ne_nil {raw : Instruction} (hd : raw.DecodesTo (.keySequence given keys delay)) :
    keys ≠ [] := by
  have hkeys := hd.keys
  rintro rfl
  cases hkeys

theorem pressesKeys_of_eq (h : p.journal = p₀.journal) : p₀.PressesKeys given keys False p :=
  ⟨[], h.trans (List.append_nil _).symm, .nothing id⟩

/-- Some keys that were pressed are the first ones. -/
theorem Step.Pressed.pressesKeys {target : ElementId} {name : String} {pressed left : List String}
    {pause : Nat} {finished : Prop}
    (h : (Step.keySequence given keys delay).Pressed p₀ target name pressed left pause p)
    (hsome : pressed ≠ []) (hall : finished → left = []) :
    p₀.PressesKeys given keys finished p := by
  obtain ⟨⟨_, hstep, haims⟩, -, hjournal⟩ := h
  cases hstep
  refine ⟨_, hjournal, .pressed haims (List.prefix_append _ _) hsome fun hf => ?_⟩
  rw [hall hf, List.append_nil]

theorem Hold.KeysLeft.pressesKeys {hold : Hold} (h : hold.KeysLeft p₀ given keys delay p) :
    p₀.PressesKeys given keys False p := by
  cases hold with
  | looking l deed => exact pressesKeys_of_eq h.2.2
  | pressing target left pause =>
    obtain ⟨name, pressed, hpressed, hsome, -⟩ := h
    exact hpressed.pressesKeys hsome False.elim
  | settling => exact h.elim

/-- Changes from outside leave what is left of the step as it was. -/
theorem Hold.KeysLeft.apply {hold : Hold} (h : hold.KeysLeft p₀ given keys delay p)
    (change : Change) : hold.KeysLeft p₀ given keys delay (change.apply p) := by
  have hjournal := change.journal_apply p
  cases hold with
  | looking l deed => exact ⟨h.1, h.2.1, hjournal.trans h.2.2⟩
  | pressing target left pause =>
    obtain ⟨name, pressed, hp, hsome⟩ := h
    exact ⟨name, pressed, ⟨hp.asked, hp.knows.apply change, hjournal.trans hp.journal⟩, hsome⟩
  | settling => exact h.elim

/-- Whether a stop request ends a wait or not, what was entered is what was entered before. -/
theorem meets_suspended {ms : Nat} {hold : Hold} (h : hold.KeysLeft p₀ given keys delay p) :
    Act.Meets (Progress.KeysGo p₀ given keys delay) (fun _ => p₀.PressesKeys given keys False)
      ((m.suspend ms hold).run p) := by
  unfold Moment.suspend
  split
  · exact h.pressesKeys
  · exact h

variable (hk : keys ≠ [])
include hk

/-- The step presses its keys. -/
theorem meets_pressing {target : ElementId} {name : String} {pressed left : List String}
    {pause : Nat}
    (h : (Step.keySequence given keys delay).Pressed p₀ target name pressed left pause p)
    (hthere : (p.find? target).isSome ∨ (pressed ≠ [] ∧ 0 < pause)) :
    Act.Meets (Progress.KeysGo p₀ given keys delay) (fun _ => p₀.PressesKeys given keys False)
      ((press m target pause left).run p) := by
  refine meets_press_of h hthere ?_ ?_ ?_
  · intro pressed q hp
    -- all keys were pressed, and there are some
    have hsome : pressed ≠ [] := by
      obtain ⟨⟨_, hstep, -⟩, -, -⟩ := hp
      cases hstep
      simpa using hk
    exact hp.pressesKeys hsome fun _ => rfl
  · exact fun hp hsome hpause => meets_suspended ⟨name, _, hp, hsome, hpause⟩
  · exact fun hp hsome _ _ => hp.pressesKeys hsome False.elim

/-- The step presses its keys on an element that is there. -/
theorem meets_striking {target : ElementId} {name : String} (h : (p.find? target).isSome)
    (hknows : p.Knows target name) (hjournal : p.journal = p₀.journal)
    (haims : p₀.Aims target name given) :
    Act.Meets (Progress.KeysGo p₀ given keys delay) (fun _ => p₀.PressesKeys given keys False)
      (((Deed.press keys delay).perform m target).run p) := by
  obtain ⟨q, hrun, hpressed, hq⟩ := run_perform_press h hknows hjournal ⟨given, rfl, haims⟩
  rw [hrun]
  exact meets_pressing hk hpressed (Or.inl hq)

/-- The step looks for its element. -/
theorem meets_seeking {l : Lookup} (hp : p.Sound) (hgiven : given = some l.selector)
    (hjournal : p.journal = p₀.journal) :
    Act.Meets (Progress.KeysGo p₀ given keys delay) (fun _ => p₀.PressesKeys given keys False)
      ((l.ask m (.press keys delay)).run p) := by
  refine meets_ask_of (fun _ => pressesKeys_of_eq hjournal) ?_ ?_
  · exact meets_suspended ⟨hgiven, rfl, hjournal⟩
  · intro e hfound hnamed
    have hknows := hp.knows (List.mem_of_find?_eq_some hfound)
    refine meets_striking hk (isSome_find?_of_lookup hfound)
      ⟨hknows.handedOut, hknows.named⟩ hjournal ?_
    rw [hgiven]
    exact hnamed

omit hk

/-- A step that presses keys begins. -/
theorem meets_keySequence {raw : Instruction} (hd : raw.DecodesTo (.keySequence given keys delay))
    (hp : p₀.Sound) :
    Act.Meets (Progress.KeysGo p₀ given keys delay) (fun _ => p₀.PressesKeys given keys False)
      (((Step.keySequence given keys delay).start m).run p₀) := by
  have hk := keys_ne_nil hd
  cases given with
  | some selector =>
    have hblank : Text.isBlankText selector = false := hd.selector rfl
    simp only [Step.start, hd.keys, Option.filter_some, hblank, Bool.not_false, if_true,
      Bool.false_eq_true, if_false]
    exact meets_seeking hk hp rfl rfl
  | none =>
    have hactive : (Act.call Surface.active).run p₀ = (.ok p₀.active, p₀) := rfl
    simp only [Step.start, hd.keys, Option.filter_none, Act.run_bind, hactive,
      Bool.false_eq_true, if_false]
    cases ha : p₀.active with
    | none => exact pressesKeys_of_eq rfl
    | some target =>
      have hfocused := hp.focused target ha
      obtain ⟨e, hmem, rfl⟩ := List.mem_map.1 hfocused
      exact meets_striking hk (isSome_find?_iff.2 hfocused) (hp.knows hmem) rfl ⟨ha, hp.knows hmem⟩

/-- **Sequences of keys.** However far a step that presses keys has come, and whatever happens while
it waits, it has entered in the journal that its element got the focus and the first of its keys, or
nothing; and all of its keys once it is finished. -/
theorem Step.Course.entered {raw : Instruction} {x : Except ActionError Progress × Page}
    (hd : raw.DecodesTo (.keySequence given keys delay)) (hp : p₀.Sound)
    (h : (Step.keySequence given keys delay).Course m₀ p₀ m x) :
    p₀.PressesKeys given keys (x.1 = .ok .finished) x.2 := by
  have hk := keys_ne_nil hd
  have hmeets : Act.Meets (Progress.KeysGo p₀ given keys delay)
      (fun _ => p₀.PressesKeys given keys False) x := by
    induction h with
    | begun => exact meets_keySequence hd hp
    | changed _ change ih => exact Hold.KeysLeft.apply ih change
    | later _ _ _ ih => exact ih
    | @resumed m wake hold p h _ ih =>
      cases hold with
      | looking l deed =>
        obtain ⟨hgiven, rfl, hjournal⟩ := ih
        exact meets_seeking hk (h.sound hp) hgiven hjournal
      | pressing target left pause =>
        obtain ⟨name, pressed, hpressed, hsome⟩ := ih
        exact meets_pressing hk hpressed (Or.inr hsome)
      | settling => exact False.elim ih
    | interrupted _ _ ih => exact Hold.KeysLeft.pressesKeys ih
  rcases x with ⟨e | _ | ⟨wake, hold⟩, q⟩
  · have hleft : p₀.PressesKeys given keys False q := hmeets
    simpa using hleft
  · have hall : p₀.PressesKeys given keys True q := hmeets
    simpa using hall
  · have hleft : p₀.PressesKeys given keys False q := Hold.KeysLeft.pressesKeys hmeets
    simpa using hleft

end Keys

end FormRehearsal
