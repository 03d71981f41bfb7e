/-
# What runners leave as it was

What steps leave as they found it, a run does, at every turn that it takes; and so does a runner,
whatever is asked of it, as long as nothing else changes its surface.

* `keeps_account` : the turns of a run keep what steps keep;
* `Framed.after` : every move does;
* `framed_afterAll` : so do the moves that lead to a world, one after another.
-/
import FormRehearsal.Proofs.Run.Frame
import FormRehearsal.Proofs.Runner.Ownership

namespace FormRehearsal

variable {σ : Type}

/-- All turns of a story leave the surface in a relation to what it was before. -/
def Story.Keeps (R : σ → σ → Prop) (s : σ) (story : Story σ) : Prop :=
  ∀ entry ∈ story, R s entry.surface

/-- A move leaves the surface in a relation to what it was, if it is one that changes the surface
from outside. -/
def Move.Keeps (R : σ → σ → Prop) : Move σ → Prop
  | .change f => ∀ s, R s (f s)
  | _ => True

variable [Surface σ] {R : σ → σ → Prop}

/-! ## Runs -/

omit [Surface σ] in
theorem Story.keeps_nil {s : σ} : Story.Keeps R s [] := fun _ h => absurd h List.not_mem_nil

omit [Surface σ] in
theorem Story.Keeps.append {s : σ} {a b : Story σ} (ha : a.Keeps R s) (hb : b.Keeps R s) :
    Story.Keeps R s (a ++ b) := List.forall_mem_append.2 ⟨ha, hb⟩

omit [Surface σ] in
theorem Story.Keeps.cons {s : σ} {entry : Entry σ} {story : Story σ} (h : story.Keeps R s)
    (he : R s entry.surface) : Story.Keeps R s (entry :: story) := by
  intro other hother
  rcases List.mem_cons.1 hother with rfl | hother
  · exact he
  · exact h other hother

omit [Surface σ] in
theorem Story.keeps_singleton {s : σ} {entry : Entry σ} (he : R s entry.surface) :
    Story.Keeps R s [entry] :=
  Story.keeps_nil.cons he

/-- A story that begins on a surface which is in the relation to another one keeps the relation to
that one. -/
theorem Story.Keeps.trans (hR : Surface.Frames R) {s t : σ} {story : Story σ}
    (h : story.Keeps R t) (hs : R s t) : story.Keeps R s :=
  fun entry he => hR.trans hs (h entry he)

omit [Surface σ] in
/-- The surface that a story leaves is that of a turn, if there is one. -/
theorem Story.Keeps.surface {s : σ} {story : Story σ} (h : story.Keeps R s) (hs : R s s) :
    R s (story.surface s) := by
  rcases story.eq_nil_or_concat with rfl | ⟨story, entry, rfl⟩
  · exact hs
  · rw [List.concat_eq_append, Story.surface_append]
    exact h entry (by simp)

/-- The steps of a program that are carried out keep the relation. -/
theorem keeps_carryOnAccount (hR : Surface.Frames R) (m : Moment) (run : Run) (program : Program)
    (s : σ) : (Run.carryOnAccount m run program s).Keeps R s := by
  induction program generalizing run s with
  | nil => exact Story.keeps_singleton (hR.refl s)
  | cons raw rest ih =>
    -- what a step leaves is in the relation to what it began on
    have started : ∀ {step : Step} {result : Except ActionError Progress} {left : σ},
        (step.start m).run s = (result, left) → R s left := by
      intro step result left hr
      have hs := keeps_start hR m step s
      rwa [hr] at hs
    cases Run.beginning m raw s with
    | stopped hs =>
      rw [Run.carryOnAccount, if_pos hs]
      exact Story.keeps_singleton (hR.refl s)
    | unknown e hs hk =>
      simp only [Run.carryOnAccount, hs, hk]
      exact Story.keeps_singleton (hR.refl s)
    | undecodable kind e hs hk hd =>
      simp only [Run.carryOnAccount, hs, hk, hd]
      exact (Story.keeps_singleton (hR.refl s)).cons (hR.refl s)
    | failed kind step e left hs hk hd hr =>
      simp only [Run.carryOnAccount, hs, hk, hd, hr]
      exact (Story.keeps_singleton (started hr)).cons (hR.refl s)
    | finished kind step left hs hk hd hr =>
      simp only [Run.carryOnAccount, hs, hk, hd, hr]
      exact (((ih _ left).trans hR (started hr)).cons (started hr)).cons (hR.refl s)
    | waiting kind step wake hold left hs hk hd hr =>
      simp only [Run.carryOnAccount, hs, hk, hd, hr]
      exact (Story.keeps_singleton (started hr)).cons (hR.refl s)

/-- **Turns.** The turns that a run takes at a moment keep what steps keep. -/
theorem keeps_account (hR : Surface.Frames R) (m : Moment) (run : Run) (s : σ) :
    (run.account m s).Keeps R s := by
  obtain ⟨token, total, done, startedAt, stage⟩ := run
  cases stage with
  | claimed program => exact (keeps_carryOnAccount hR m _ program s).cons (hR.refl s)
  | waiting step since wake hold rest =>
    simp only [Run.account]
    by_cases hw : m.resumes wake = true
    · rw [if_pos hw]
      have hleft := keeps_resume hR m hold s
      rcases hr : (hold.resume m).run s with ⟨e | _ | ⟨later, more⟩, left⟩ <;> rw [hr] at hleft
      · exact Story.keeps_singleton hleft
      · exact ((keeps_carryOnAccount hR m _ rest left).trans hR hleft).cons hleft
      · exact Story.keeps_singleton hleft
    · rw [if_neg hw]
      split
      · exact Story.keeps_singleton (hR.refl s)
      · exact Story.keeps_nil

/-- A run that goes on leaves the surface in the relation to what it was. -/
theorem keeps_advance (hR : Surface.Frames R) (m : Moment) (run : Run) (s : σ) :
    R s (run.advance m s).surface := by
  rw [(Run.tells_account m run s).surface]
  exact (keeps_account hR m run s).surface (hR.refl s)

/-! ## Runners -/

/-- The surface of a world is in a relation to what it was at first, and so were the surfaces that
the runs left at their turns. -/
structure Framed (R : σ → σ → Prop) (s : σ) (w : World σ) : Prop where
  owned : Owned w.runner w.happenings
  surface : R s w.runner.surface
  stories : ∀ token, (w.storyOf token).Keeps R s

namespace Framed

variable {s : σ} {w : World σ}

/-- What a move adds to the stories keeps the relation, and so does the surface that it leaves. -/
theorem snoc (h : Framed R s w) {move : Move σ} (hsurface : R s (w.runner.move move).runner.surface)
    (hstory : ∀ token, ((w.runner.move move).answer.storyOf token).Keeps R s) :
    Framed R s (w.after move) where
  owned := h.owned.after move
  surface := hsurface
  stories := by
    intro token
    rw [World.storyOf_after]
    exact (h.stories token).append (hstory token)

/-- **Moves.** Every move keeps what steps keep, but for a change from outside that does not. -/
theorem after (hR : Surface.Frames R) (h : Framed R s w) {move : Move σ} (hmove : move.Keeps R) :
    Framed R s (w.after move) := by
  cases h.owned.comes move with
  | idle _ hstory _ hsurface _ =>
    refine h.snoc ?_ fun token => ?_
    · rw [hsurface]
      exact h.surface
    · rw [hstory]
      exact Story.keeps_nil
  | claimed program hr hm =>
    rw [Runner.start_eq_of_idle hr] at hm
    refine h.snoc ?_ fun token => ?_ <;> rw [hm]
    · exact h.surface
    · exact Story.keeps_nil
  | wentOn run report? events r' _ _ hm hsurface _ =>
    refine h.snoc ?_ fun token => ?_ <;> rw [hm]
    · rw [hsurface]
      exact hR.trans h.surface (keeps_advance hR _ run _)
    · rw [Happening.storyOf]
      split
      · exact (keeps_account hR _ run _).trans hR h.surface
      · exact Story.keeps_nil
  | changed f hf =>
    subst hf
    exact h.snoc (hR.trans h.surface (hmove _)) fun _ => Story.keeps_nil

end Framed

/-- **Reached worlds.** What steps keep is kept by whatever is asked of a runner, if the changes
from outside keep it. -/
theorem framed_afterAll (hR : Surface.Frames R) (s : σ) (policy : RunPolicy) {moves : List (Move σ)}
    (hmoves : ∀ move ∈ moves, move.Keeps R) :
    Framed R s ((World.fresh s policy).afterAll moves) := by
  have hall : ∀ w : World σ, Framed R s w → Framed R s (w.afterAll moves) := by
    induction moves with
    | nil => exact fun _ h => h
    | cons move moves ih =>
      obtain ⟨hmove, hrest⟩ := List.forall_mem_cons.1 hmoves
      exact fun w h => ih hrest _ (h.after hR hmove)
  exact hall _ ⟨owned_fresh s policy, hR.refl s, fun _ => Story.keeps_nil⟩

end FormRehearsal
