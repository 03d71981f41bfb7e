/-
# The keys of a runner

No key is left held down, wherever a run waits and however it ends: the entries of keys that runs
make in the journal form pairs. What each step that presses keys has entered is that its element got
the focus and the first of its keys, whether it was carried out, failed, was interrupted between two
keys or was abandoned there.

* `Move.FromOutside.releases` : what changes a page from outside presses no keys;
* `released_afterAll` : keys are released in every world.
-/
import FormRehearsal.Proofs.Page.Keys
import FormRehearsal.Proofs.Runner.Frame
import FormRehearsal.Proofs.Runner.Stretches

namespace FormRehearsal

open Page

/-- Nothing that changes a page from outside is entered in the journal. -/
theorem Move.FromOutside.releases {move : Move Page} (h : move.FromOutside) :
    move.Keeps Page.Releases := by
  cases move with
  | change f =>
    obtain ⟨change, hf⟩ := h
    intro p
    rw [hf]
    exact .of_eq (change.journal_apply p)
  | _ => trivial

/-- Keys that were pressed since a page had some journal were released, and each step of the runs
that presses keys has entered what it should. -/
structure Released (p : Page) (w : World Page) : Prop where
  surface : p.Releases w.runner.surface
  turns : ∀ token, ∀ entry ∈ w.storyOf token, p.Releases entry.surface
  /-- a step that has come to something since it was announced -/
  stretches : ∀ token program, .claimed token program ∈ w.happenings →
    ∀ x ∈ (w.storyOf token).stretches, ∃ i raw step, x.number = i + 1 ∧ program[i]? = some raw ∧
      raw.DecodesTo step ∧ ∀ given keys delay, step = .keySequence given keys delay →
        x.before.PressesKeys given keys (x.result = .ok .finished) x.after
  /-- every turn at which a step waits, is carried out or fails is the end of such a stretch -/
  covered : ∀ token program, .claimed token program ∈ w.happenings →
    ∀ entry ∈ w.storyOf token, ∀ result, entry.turn.result? = some result →
      ∃ x ∈ (w.storyOf token).stretches, x.result = result ∧ x.after = entry.surface
  /-- a step that waits now -/
  waiting : ∀ run ∈ w.runner.runs, ∀ given keys delay since wake hold rest,
    run.stage = .waiting (.keySequence given keys delay) since wake hold rest →
      ∃ before, (w.storyOf run.token).current = some (run.done.length + 1, before) ∧
        before.PressesKeys given keys False w.runner.surface

/-- **Keys.** On a page that is reached, whatever is asked of a runner and however the page changes
from outside: every key that goes down comes up right after it. A step that presses keys has entered
in the journal, from its announcement on, that its element got the focus and the first of its keys,
or nothing; and all of its keys if it was carried out. -/
theorem released_afterAll {p : Page} (hp : p.Reachable) (policy : RunPolicy)
    {moves : List (Move Page)} (hmoves : ∀ move ∈ moves, move.FromOutside) :
    Released p ((World.fresh p policy).afterAll moves) := by
  have htrack := onTrack_afterAll hp policy hmoves
  have hframed := framed_afterAll frames_releases p policy fun move hm => (hmoves move hm).releases
  constructor
  case surface => exact hframed.surface
  case turns => exact hframed.stories
  case stretches =>
    intro token program hclaimed x hx
    obtain ⟨i, raw, step, m₀, m, hnumber, hraw, hd, hbefore, -, hc⟩ :=
      (htrack.steps token program hclaimed).fits x hx
    refine ⟨i, raw, step, hnumber, hraw, hd, ?_⟩
    rintro given keys delay rfl
    exact hc.entered hd hbefore.sound
  case covered =>
    intro token program hclaimed entry he result hr
    exact (htrack.steps token program hclaimed).covers he hr
  case waiting =>
    intro run hrun given keys delay since wake hold rest hstage
    obtain ⟨hr, -, htoken⟩ := htrack.keeps.owned.eq_of_mem hrun
    obtain ⟨program, hclaimed⟩ := ((htrack.keeps.owned.live run.token).2 ⟨hr, htoken⟩).claimed
    have hunder := (htrack.keeps.live run.token program hclaimed run hrun rfl).1.stage
    have hcourse := htrack.live run hrun
    rw [hstage] at hunder
    rw [Run.InCourse, hstage] at hcourse
    obtain ⟨raw, -, hd⟩ := hunder
    obtain ⟨before, m₀, hcurrent, hbefore, hc⟩ := hcourse
    refine ⟨before, hcurrent, ?_⟩
    have hentered := hc.entered hd hbefore.sound
    simpa using hentered

/-- An element is removed between two of its keys, and another run is abandoned between two keys. -/
theorem released_afterAll_cut_short :
    let page : Page := (Change.add "#b" "" 0).apply ((Change.add "#a" "" 0).apply {})
    let keys (selector : String) : Program :=
      [[("action", .string "keySequence"), ("selector", .string selector),
        ("keys", .array [.string "x", .string "y"])]]
    let moves : List (Move Page) :=
      [.start (keys "#a"), .goOn ⟨1⟩, .change fun p => (Change.remove "#a").apply p, .pass 100,
        .goOn ⟨1⟩, .start (keys "#b"), .goOn ⟨3⟩, .abandon ⟨3⟩ false]
    let w := (World.fresh page {}).afterAll moves
    w.runner.surface.journal =
        .focus "#a" :: keyPairs "#a" ["x"] ++ .focus "#b" :: keyPairs "#b" ["x"] ∧
      Released page w := by
  intro page keys moves w
  have hp : page.Reachable := (Reachable.empty.changed _).changed _
  refine ⟨by decide +kernel, released_afterAll hp {} ?_⟩
  intro move hm
  simp only [moves, List.mem_cons, List.not_mem_nil, or_false] at hm
  rcases hm with rfl | rfl | rfl | rfl | rfl | rfl | rfl | rfl
  case inr.inr.inl => exact ⟨.remove "#a", fun _ => rfl⟩
  all_goals trivial

end FormRehearsal
