/-
# What is done to a page

Elements are added and removed and the focus is moved from outside, and capabilities are called with
handles of whatever origin: with those of elements that were removed, or with any other text. What
was done to a page that was empty decides which handles can be used. A call either succeeds and
enters in the journal what it did, or it changes nothing.

* `reachable_after` : the pages after some operations are reached;
* `elements_after` : the elements of a page are those that were added and not removed since;
* `nodup_handles` : no handle is handed out twice;
* `make_of_unusable`, `make_of_usable` : what calls come to with a handle;
* `accounts_after` : all of this after any operations.
-/
import Mathlib.Data.List.Induction
import FormRehearsal.Proofs.Page.Handles

namespace FormRehearsal.Page

/-! ## Calls -/

/-- What can be done with the element of a handle. -/
inductive Use where
  | click
  | focus
  | read
  | write (text : String)
  | key (name : String) (phase : KeyPhase)
  | highlight (duration : Nat)
  deriving DecidableEq, Repr

/-- A call of a capability. -/
inductive Call where
  | query (now : Nat) (selector : String)
  | active
  | scroll (x y : Float) (behavior : ScrollBehavior)
  | on (element : ElementId) (use : Use)

/-- What a call is answered. -/
inductive Answer where
  | done
  | text (value : String)
  | element (found : Option ElementId)
  deriving DecidableEq, Repr

/-- A capability with its answers as those of calls. -/
def answering {α : Type} (answer : α → Answer) (capability : Capability Page α) :
    Capability Page Answer := fun p => ((capability p).1.map answer, (capability p).2)

/-- Does something with an element. -/
def Use.make (element : ElementId) : Use → Capability Page Answer
  | click => answering (fun _ => .done) (Surface.click element)
  | focus => answering (fun _ => .done) (Surface.focus element)
  | read => answering .text (Surface.read element)
  | write text => answering (fun _ => .done) (Surface.write element text)
  | key name phase => answering (fun _ => .done) (Surface.key element name phase)
  | highlight duration => answering (fun _ => .done) (Surface.highlight element duration)

/-- Makes a call. -/
def Call.make : Call → Capability Page Answer
  | query now selector => answering .element (Surface.query now selector)
  | active => answering .element Surface.active
  | scroll x y behavior => answering (fun _ => .done) (Surface.scroll x y behavior)
  | on element use => use.make element

/-- What is entered in the journal when something is done with the element of a selector. -/
def Use.entry? (selector : String) : Use → Option PageEvent
  | click => some (.click selector)
  | focus => some (.focus selector)
  | read => none
  | write text => some (.write selector text)
  | key name phase => some (.key selector name phase)
  | highlight duration => some (.highlight selector duration)

/-- The page that a call leaves is that of a capability which is offered. -/
theorem exists_offers (call : Call) : ∃ (α : Type) (capability : Capability Page α),
    Surface.Offers capability ∧ ∀ p, (call.make p).2 = (capability p).2 := by
  cases call with
  | query now selector => exact ⟨_, _, .query now selector, fun _ => rfl⟩
  | active => exact ⟨_, _, .active, fun _ => rfl⟩
  | scroll x y behavior => exact ⟨_, _, .scroll x y behavior, fun _ => rfl⟩
  | on element use =>
    cases use with
    | click => exact ⟨_, _, .click element, fun _ => rfl⟩
    | focus => exact ⟨_, _, .focus element, fun _ => rfl⟩
    | read => exact ⟨_, _, .read element, fun _ => rfl⟩
    | write text => exact ⟨_, _, .write element text, fun _ => rfl⟩
    | key name phase => exact ⟨_, _, .key element name phase, fun _ => rfl⟩
    | highlight duration => exact ⟨_, _, .highlight element duration, fun _ => rfl⟩

/-- Calls neither add elements nor take them away. -/
theorem acted_make (call : Call) (p : Page) : Acted p (call.make p).2 := by
  obtain ⟨α, capability, hoffers, hpage⟩ := exists_offers call
  rw [hpage]
  exact keeps_acted.offered hoffers p

/-- A handle can be used: whatever is done with its element succeeds. -/
def Usable (p : Page) (id : ElementId) : Prop :=
  ∀ use : Use, ∃ answer, (use.make id p).1 = .ok answer

variable {p : Page} {id : ElementId}

/-- What is done with an element that is there is answered and entered in the journal. -/
theorem make_of_find? {e : Element} (he : p.find? id = some e) (use : Use) :
    ∃ answer, (use.make id p).1 = .ok answer ∧
      (use.make id p).2.journal = p.journal ++ (use.entry? e.selector).toList := by
  have run : ∀ {α : Type} (effect : Element → Page → α × Page) (answer : α → Answer),
      answering answer (onElement id effect) p = (.ok (answer (effect e p).1), (effect e p).2) := by
    intro α effect answer
    simp only [answering, onElement, he]
    rfl
  cases use with
  | click => exact ⟨.done, congrArg Prod.fst (run _ _), congrArg (·.2.journal) (run _ _)⟩
  | focus => exact ⟨.done, congrArg Prod.fst (run _ _), congrArg (·.2.journal) (run _ _)⟩
  | read =>
    refine ⟨.text e.value, congrArg Prod.fst (run _ _), ?_⟩
    rw [Use.entry?, Option.toList_none, List.append_nil]
    exact congrArg (·.2.journal) (run _ _)
  | write text => exact ⟨.done, congrArg Prod.fst (run _ _), congrArg (·.2.journal) (run _ _)⟩
  | key name phase => exact ⟨.done, congrArg Prod.fst (run _ _), congrArg (·.2.journal) (run _ _)⟩
  | highlight duration =>
    exact ⟨.done, congrArg Prod.fst (run _ _), congrArg (·.2.journal) (run _ _)⟩

/-- What is done with an element that is not there changes nothing. -/
theorem make_of_find?_eq_none (hn : p.find? id = none) (use : Use) :
    use.make id p = (.error (.detached id.text), p) := by
  have run : ∀ {α : Type} (effect : Element → Page → α × Page) (answer : α → Answer),
      answering answer (onElement id effect) p = (.error (.detached id.text), p) := by
    intro α effect answer
    simp only [answering, onElement, hn]
    rfl
  cases use <;> exact run _ _

/-- The handles that can be used are those of the elements that are there. -/
theorem usable_iff : p.Usable id ↔ ∃ e, p.find? id = some e := by
  constructor
  · intro h
    cases hf : p.find? id with
    | some e => exact ⟨e, rfl⟩
    | none =>
      obtain ⟨answer, ha⟩ := h .click
      rw [make_of_find?_eq_none hf] at ha
      cases ha
  · rintro ⟨e, he⟩ use
    obtain ⟨answer, ha, -⟩ := make_of_find? he use
    exact ⟨answer, ha⟩

/-! ## Operations -/

/-- Something that is done to a page. -/
inductive Operation where
  | change (change : Change)
  | call (call : Call)

/-- The page after something was done to it. -/
def Operation.apply (p : Page) : Operation → Page
  | change c => c.apply p
  | call c => (c.make p).2

/-- The handle that is handed out, if an element is added. -/
def Operation.handle? (p : Page) : Operation → Option ElementId
  | change (.add selector value visibleFrom) => some (p.add selector value visibleFrom).1
  | _ => none

/-- The page after some operations. -/
def after (p : Page) (operations : List Operation) : Page := operations.foldl Operation.apply p

/-- The handles that are handed out by some operations. -/
def handles (p : Page) : List Operation → List ElementId
  | [] => []
  | operation :: operations =>
    (operation.handle? p).toList ++ (operation.apply p).handles operations

/-- A handle was handed out for an element of a selector, and the elements of this selector have not
been removed since. -/
def Holds (operations : List Operation) (id : ElementId) (selector : String) : Prop :=
  ∃ before value visibleFrom since,
    operations = before ++ .change (.add selector value visibleFrom) :: since ∧
      id = ((after {} before).add selector value visibleFrom).1 ∧
      .change (.remove selector) ∉ since

theorem after_snoc (p : Page) (operations : List Operation) (operation : Operation) :
    p.after (operations ++ [operation]) = operation.apply (p.after operations) := by
  rw [after, List.foldl_append]
  rfl

/-- The pages after some operations are reached. -/
theorem reachable_after (operations : List Operation) : (after {} operations).Reachable := by
  induction operations using List.reverseRecOn with
  | nil => exact .empty
  | append_singleton operations operation ih =>
    rw [after_snoc]
    cases operation with
    | change c => exact ih.changed c
    | call c =>
      obtain ⟨α, capability, hoffers, hpage⟩ := exists_offers c
      rw [Operation.apply, hpage]
      exact ih.used hoffers

/-! ## Handles -/

/-- The last number only grows. -/
theorem le_lastId_apply (operation : Operation) (p : Page) :
    p.lastId ≤ (operation.apply p).lastId := by
  cases operation with
  | change c => exact c.le_lastId_apply p
  | call c => exact Nat.le_of_eq (acted_make c p).lastId

/-- The handles that are handed out have higher numbers than those before. -/
theorem lt_of_mem_handles {operations : List Operation} {p : Page} {id : ElementId}
    (h : id ∈ p.handles operations) : ∃ n, p.lastId < n ∧ id = idOf n := by
  induction operations generalizing p with
  | nil => cases h
  | cons operation operations ih =>
    rcases List.mem_append.1 h with h | h
    · cases operation with
      | call c => cases h
      | change c =>
        cases c with
        | add selector value visibleFrom =>
          exact ⟨p.lastId + 1, Nat.lt_succ_self _, List.mem_singleton.1 h⟩
        | _ => cases h
    · obtain ⟨n, hn, rfl⟩ := ih h
      exact ⟨n, Nat.lt_of_le_of_lt (le_lastId_apply operation p) hn, rfl⟩

/-- No handle is handed out twice. -/
theorem nodup_handles (operations : List Operation) (p : Page) : (p.handles operations).Nodup := by
  induction operations generalizing p with
  | nil => exact List.nodup_nil
  | cons operation operations ih =>
    refine List.nodup_append.2 ⟨?_, ih _, ?_⟩
    · cases operation.handle? p with
      | none => exact List.nodup_nil
      | some id => exact List.nodup_singleton id
    · rintro a ha b hb rfl
      cases operation with
      | call c => cases ha
      | change c =>
        cases c with
        | add selector value visibleFrom =>
          obtain ⟨n, hn, hid⟩ := lt_of_mem_handles hb
          -- a handle that comes later has a higher number
          obtain rfl : a = idOf (p.lastId + 1) := List.mem_singleton.1 ha
          have hsame := idOf_inj hid
          have hlt : p.lastId + 1 < n := hn
          omega
        | _ => cases ha

/-- What is held after one more operation. -/
theorem holds_snoc {operations : List Operation} {operation : Operation} {id : ElementId}
    {selector : String} :
    Holds (operations ++ [operation]) id selector ↔
      (Holds operations id selector ∧ operation ≠ .change (.remove selector)) ∨
        ∃ value visibleFrom, operation = .change (.add selector value visibleFrom) ∧
          id = ((after {} operations).add selector value visibleFrom).1 := by
  constructor
  · rintro ⟨before, value, visibleFrom, since, h, hid, hsince⟩
    -- the element was added last, or there was something after it
    rcases since.eq_nil_or_concat with rfl | ⟨since, last, rfl⟩
    · obtain ⟨rfl, hlast⟩ := List.append_inj' h rfl
      exact .inr ⟨value, visibleFrom, by simpa using hlast, hid⟩
    · rw [List.concat_eq_append, ← List.cons_append, ← List.append_assoc] at h
      obtain ⟨rfl, hlast⟩ := List.append_inj' h rfl
      obtain rfl : operation = last := by simpa using hlast
      rw [List.concat_eq_append, List.mem_append, List.mem_singleton, not_or] at hsince
      exact .inl ⟨⟨before, value, visibleFrom, since, rfl, hid, hsince.1⟩, Ne.symm hsince.2⟩
  · rintro (⟨⟨before, value, visibleFrom, since, rfl, hid, hsince⟩, hne⟩ |
      ⟨value, visibleFrom, rfl, hid⟩)
    · refine ⟨before, value, visibleFrom, since ++ [operation], by simp, hid, ?_⟩
      rw [List.mem_append, List.mem_singleton, not_or]
      exact ⟨hsince, Ne.symm hne⟩
    · exact ⟨operations, value, visibleFrom, [], rfl, hid, List.not_mem_nil⟩

/-- An element is there under a handle and a selector. -/
def Has (p : Page) (id : ElementId) (selector : String) : Prop :=
  ∃ e ∈ p.elements, e.id = id ∧ e.selector = selector

/-- What is there depends on the layout. -/
theorem has_congr {p q : Page} (h : p.layout = q.layout) (id : ElementId) (selector : String) :
    p.Has id selector ↔ q.Has id selector := by
  have mem : ∀ p : Page, p.Has id selector ↔ ∃ t, (id, selector, t) ∈ p.layout := by
    intro p
    simp [Has, layout]
  rw [mem, mem, h]

/-- **Elements.** The elements that are there after some operations are those that were added and
not removed since. -/
theorem elements_after (operations : List Operation) (id : ElementId) (selector : String) :
    (after {} operations).Has id selector ↔ Holds operations id selector := by
  induction operations using List.reverseRecOn with
  | nil =>
    constructor
    · rintro ⟨e, he, -⟩
      cases he
    · rintro ⟨before, value, visibleFrom, since, h, -⟩
      simp at h
  | append_singleton operations operation ih =>
    rw [holds_snoc, ← ih, after_snoc]
    cases operation with
    | call c => simp [Operation.apply, ← has_congr (acted_make c _).layout]
    | change c =>
      cases c with
      | setFocused other =>
        have hsame := has_congr (p := (after {} operations).setFocused other)
          (q := after {} operations) rfl id selector
        simp [Operation.apply, Change.apply, hsame]
      | remove other =>
        constructor
        · rintro ⟨e, he, rfl, rfl⟩
          obtain ⟨he, hne⟩ := List.mem_filter.1 he
          refine .inl ⟨⟨e, he, rfl, rfl⟩, fun h => ?_⟩
          cases h
          simp at hne
        · rintro (⟨⟨e, he, rfl, rfl⟩, hne⟩ | ⟨_, _, h, -⟩)
          · refine ⟨e, List.mem_filter.2 ⟨he, decide_eq_true fun h => hne ?_⟩, rfl, rfl⟩
            rw [h]
          · cases h
      | add other value visibleFrom =>
        constructor
        · rintro ⟨e, he, rfl, rfl⟩
          rcases List.mem_append.1 he with he | he
          · exact .inl ⟨⟨e, he, rfl, rfl⟩, fun h => by cases h⟩
          · obtain rfl := List.mem_singleton.1 he
            exact .inr ⟨value, visibleFrom, rfl, rfl⟩
        · rintro (⟨⟨e, he, rfl, rfl⟩, -⟩ | ⟨_, _, h, rfl⟩)
          · exact ⟨e, List.mem_append_left _ he, rfl, rfl⟩
          · cases h
            exact ⟨_, List.mem_append_right _ (List.mem_singleton.2 rfl), rfl, rfl⟩

/-! ## Accounts of pages -/

/-- What is true of a page after some operations on an empty one. -/
structure Accounts (operations : List Operation) (p : Page) : Prop where
  /-- the handles of the elements are distinct -/
  distinct : p.ids.Nodup
  /-- no handle is handed out twice, also after its element was removed -/
  handles : (handles {} operations).Nodup
  /-- the focus is on an element that is there, or on none -/
  focused : ∀ id, p.active = some id → id ∈ p.ids
  focusedSelector : p.focusedSelector = none ↔ (Call.active.make p).1 = .ok (.element none)
  /-- a handle can be used as long as its element is not removed -/
  usable : ∀ id, p.Usable id ↔ ∃ selector, Holds operations id selector
  /-- what is done with a handle that cannot be used changes nothing -/
  unusable : ∀ id, ¬ p.Usable id → ∀ use : Use,
    (Call.on id use).make p = (.error (.detached id.text), p)
  /-- a call fails in no other way -/
  failed : ∀ call e, (Call.make call p).1 = .error e →
    (Call.make call p).2 = p ∧ ∃ id use, call = .on id use ∧ ¬ p.Usable id
  /-- what is done with an element is entered in the journal under its selector -/
  entered : ∀ id selector, Holds operations id selector → ∀ use : Use,
    ((Call.on id use).make p).2.journal = p.journal ++ (use.entry? selector).toList
  scrolled : ∀ x y behavior,
    ((Call.scroll x y behavior).make p).2.journal = p.journal ++ [.scroll x y behavior]
  /-- nothing else is entered in the journal -/
  queried : ∀ now selector, ((Call.query now selector).make p).2.journal = p.journal
  looked : (Call.active.make p).2.journal = p.journal
  changed : ∀ change : Change, (change.apply p).journal = p.journal

/-- The page has an element under each handle that is held, and it is found by the handle. -/
theorem Holds.find? {operations : List Operation} {id : ElementId} {selector : String}
    (h : Holds operations id selector) :
    ∃ e, (after {} operations).find? id = some e ∧ e.selector = selector := by
  obtain ⟨e, he, rfl, rfl⟩ := (elements_after operations id selector).2 h
  exact ⟨e, (reachable_after operations).sound.find?_id he, rfl⟩

/-- Handles that are held are those that can be used. -/
theorem usable_after_iff {operations : List Operation} {id : ElementId} :
    (after {} operations).Usable id ↔ ∃ selector, Holds operations id selector := by
  rw [usable_iff]
  constructor
  · rintro ⟨e, he⟩
    obtain ⟨hmem, hid⟩ := mem_of_find? he
    exact ⟨e.selector, (elements_after _ _ _).1 ⟨e, hmem, hid, rfl⟩⟩
  · rintro ⟨selector, h⟩
    obtain ⟨e, he, -⟩ := h.find?
    exact ⟨e, he⟩

/-- An element has the focus if a selector is said to have it. -/
theorem Sound.focusedSelector_eq_none_iff (h : p.Sound) :
    p.focusedSelector = none ↔ p.active = none := by
  rw [focusedSelector]
  cases ha : p.active with
  | none => simp
  | some id =>
    obtain ⟨e, he⟩ := Option.isSome_iff_exists.1 (isSome_find?_iff.2 (h.focused id ha))
    simp [selectorOf, he]

/-- **Pages.** Whatever is done to an empty page, with handles of whatever origin: the handles of
its elements are distinct and none is handed out again, the focus is on an element that is there or
on none, a handle can be used until its element is removed and never after, and every call enters
one thing in the journal or changes nothing. -/
theorem accounts_after (operations : List Operation) :
    Accounts operations (after {} operations) := by
  have hsound := (reachable_after operations).sound
  constructor
  case distinct => exact hsound.distinct
  case handles => exact nodup_handles operations {}
  case focused => exact hsound.focused
  case focusedSelector =>
    rw [hsound.focusedSelector_eq_none_iff]
    show _ ↔ (Except.ok (Answer.element _) : Except SurfaceError Answer) = _
    simp
  case usable => exact fun _ => usable_after_iff
  case unusable =>
    intro id hid use
    rw [usable_iff, not_exists, ← Option.eq_none_iff_forall_ne_some] at hid
    exact make_of_find?_eq_none hid use
  case failed =>
    intro call e he
    cases call with
    | on id use =>
      cases hf : (after {} operations).find? id with
      | some found =>
        obtain ⟨answer, ha, -⟩ := make_of_find? hf use
        rw [Call.make, ha] at he
        cases he
      | none =>
        refine ⟨?_, id, use, rfl, fun hu => ?_⟩
        · rw [Call.make, make_of_find?_eq_none hf]
        · obtain ⟨found, hfound⟩ := usable_iff.1 hu
          rw [hf] at hfound
          cases hfound
    | _ => cases he
  case entered =>
    intro id selector h use
    obtain ⟨e, he, rfl⟩ := h.find?
    obtain ⟨answer, -, hj⟩ := make_of_find? he use
    exact hj
  case scrolled => exact fun _ _ _ => rfl
  case queried => exact fun _ _ => rfl
  case looked => rfl
  case changed => exact fun change => change.journal_apply _

end FormRehearsal.Page
