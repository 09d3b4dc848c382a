import GestureActions.Proofs.Service.Following
import GestureActions.Proofs.System.Assembly
import GestureActions.Service.Basic

/-! # The service as it is assembled

The assembled world can be written down. Its members have the stored switches and know
nothing of the screen yet, and its four voters have withdrawn votes.
-/
namespace GestureActions

namespace Service

theorem assemble_eq (c : Config) (p : Preferences) (start : Instant) : assemble c p start =
    { clock := ⟨start⟩
      registry := ⟨[(.chopChop, .observer 1)]⟩
      poll := ⟨[(⟨1⟩, .withdrawn), (⟨2⟩, .withdrawn), (⟨3⟩, .withdrawn), (⟨4⟩, .withdrawn)], .idle, 5⟩
      screen := none
      doze := .initial c.timings.dozeInterval
      flashlight := ⟨p.flashlight, c.timings.vibration⟩
      observers :=
        [.doze, .flashlight .flashlight, .pickup .doze (.initial .initial p.pickUp),
         .unstow .doze (.initial .initial p.pickUp), .approach ⟨1⟩ .doze (.initial () p.approach),
         .attentive ⟨2⟩ c.mode c.timings.stowWindow (.initial (.initial c.mode c.timings) p.attentive)]
      order := [0, 1, 2, 3, 4, 5]
      alarm := some ⟨⟨4⟩, AlarmSilencer.initial c.timings.silenceDelay p.silence⟩
      call := some ⟨⟨3⟩, CallSilencer.initial c.timings.silenceDelay p.silence⟩
      log := [⟨.observer 1, .register .chopChop⟩] } := by
  have hvoiceless : ((((World.initial start c.timings.dozeInterval c.timings.vibration p.flashlight).add
        c.timings .doze).add c.timings (.flashlight .flashlight)).add c.timings
        (.pickup .doze p.pickUp)).add c.timings (.unstow .doze p.pickUp) =
      { World.initial start c.timings.dozeInterval c.timings.vibration p.flashlight with
        registry := ⟨[(.chopChop, .observer 1)]⟩
        observers :=
          [.doze, .flashlight .flashlight, .pickup .doze (.initial .initial p.pickUp),
           .unstow .doze (.initial .initial p.pickUp)]
        order := [0, 1, 2, 3]
        log := [⟨.observer 1, .register .chopChop⟩] } := rfl
  simp only [assemble, blueprints, List.foldl_cons, List.foldl_nil, hvoiceless]
  simp only [World.add, World.append_vote]
  rw [World.voted_idle, World.voted_idle, World.addCall_eq, World.voted_idle, World.addAlarm_eq,
    World.voted_idle]
  · rfl
  · rfl
  · exact World.withdrawn_inactive [⟨1⟩, ⟨2⟩, ⟨3⟩]
  · rfl
  · rfl
  · exact World.withdrawn_inactive [⟨1⟩, ⟨2⟩]
  · rfl
  · rfl
  · exact World.withdrawn_inactive []
  · rfl
  · rfl
  · exact World.withdrawn_inactive [⟨1⟩]
  · rfl

/-- The voters of the service with their votes by the signals. -/
def ballot (mode : AttentiveMode) (g : Signals) : Party → Option (Client × Vote)
  | .observer 4 => some (⟨1⟩, (Approach.stake ⟨1⟩).vote g.hand)
  | .observer 5 => some (⟨2⟩, (Attentive.stake ⟨2⟩ mode).vote g.presence)
  | .call => some (⟨3⟩, (AlarmSilencer.stake ⟨3⟩).vote g.hush)
  | .alarm => some (⟨4⟩, (AlarmSilencer.stake ⟨4⟩).vote g.snooze)
  | _ => none

variable (c : Config) (p : Preferences) (start : Instant)

theorem ballot_assemble (g : Signals) (q : Party) :
    (assemble c p start).ballot g q = ballot c.mode g q := by
  rw [assemble_eq]
  cases q with
  | observer i =>
    match i with
    | 0 | 1 | 2 | 3 | 4 | 5 => rfl
    | n + 6 => rfl
  | _ => rfl

theorem ballot_client {mode : AttentiveMode} {g : Signals} {q : Party} {d : Client}
    (h : (ballot mode g q).map (·.1) = some d) :
    q = .observer 4 ∧ d = ⟨1⟩ ∨ q = .observer 5 ∧ d = ⟨2⟩ ∨ q = .call ∧ d = ⟨3⟩ ∨ q = .alarm ∧ d = ⟨4⟩ := by
  unfold ballot at h
  split at h <;> simp_all

theorem ballot_inj {mode : AttentiveMode} {g : Signals} {q r : Party} {d : Client}
    (hq : (ballot mode g q).map (·.1) = some d) (hr : (ballot mode g r).map (·.1) = some d) : q = r := by
  rcases ballot_client hq with ⟨rfl, rfl⟩ | ⟨rfl, rfl⟩ | ⟨rfl, rfl⟩ | ⟨rfl, rfl⟩ <;>
    rcases ballot_client hr with ⟨rfl, h⟩ | ⟨rfl, h⟩ | ⟨rfl, h⟩ | ⟨rfl, h⟩ <;> first | rfl | cases h

theorem orderly_assemble : (assemble c p start).Orderly where
  order := by
    rw [assemble_eq]
    exact List.nodup_range (n := 6)
  seated i hi := by
    rw [assemble_eq] at hi ⊢
    match i with
    | 0 | 1 | 2 | 3 | 4 | 5 => simp
    | n + 6 => cases hi
  apart q r d hq hr := by
    rw [World.clientOf_eq_ballot ⟨none, false, .idle, p.get⟩, ballot_assemble] at hq hr
    exact ballot_inj hq hr
  nodup := by
    rw [assemble_eq]
    exact List.nodup_singleton _

theorem inStep_assemble : (assemble c p start).InStep := by
  rw [assemble_eq]
  refine ⟨⟨?_, rfl⟩, rfl⟩
  change [Client.mk 1, ⟨2⟩, ⟨3⟩, ⟨4⟩].Nodup
  decide

/-- The members start with the stored switches and know nothing of the screen. -/
theorem follows_assemble : (assemble c p start).Follows ⟨none, false, .idle, p.get⟩ := by
  refine ⟨orderly_assemble c p start, inStep_assemble c p start, fun q s hs => ?_⟩
  rw [assemble_eq] at hs
  cases q with
  | observer i =>
    match i with
    | 0 | 1 => cases hs; exact ⟨trivial, rfl⟩
    | 2 | 3 | 4 | 5 => cases hs; exact ⟨Sentry.heeds_initial _ _, rfl⟩
    | n + 6 => cases hs
  | alarm => cases hs; exact ⟨Sentry.heeds_initial _ _, rfl⟩
  | call => cases hs; exact ⟨⟨rfl, _, rfl, rfl, rfl⟩, rfl⟩
  | doze => cases hs
  | flashlight => cases hs

def votes (mode : AttentiveMode) (g : Signals) : List (Client × Vote) :=
  [.observer 4, .observer 5, .call, .alarm].filterMap (ballot mode g)

/-- While all know the signals and nobody else has come to vote, the votes are those of
the voters by the signals. -/
theorem vote?_eq_latest {w : World} {g : Signals} (hw : w.Follows g)
    (hs : World.SameVoters (assemble c p start) w) (d : Client) :
    w.poll.vote? d = Poll.latest (votes c.mode g) d := by
  have hballot : ∀ q x, ballot c.mode g q = some x → w.poll.vote? x.1 = some x.2 := by
    intro q x hx
    refine hw.vote? (p := q) ?_
    rw [hs.ballot, ballot_assemble, hx]
  have hstranger : d ∉ [Client.mk 1, ⟨2⟩, ⟨3⟩, ⟨4⟩] → w.poll.vote? d = none := by
    intro hd
    rw [hs.stranger d, assemble_eq]
    · obtain ⟨n⟩ := d
      simp only [List.mem_cons, Client.mk.injEq, List.not_mem_nil, or_false, not_or] at hd
      simp [Poll.vote?, Poll.latest, Ne.symm hd.1, Ne.symm hd.2.1, Ne.symm hd.2.2.1, Ne.symm hd.2.2.2]
    · intro q hq
      rw [World.clientOf_eq_ballot g, ballot_assemble] at hq
      rcases ballot_client hq with ⟨_, rfl⟩ | ⟨_, rfl⟩ | ⟨_, rfl⟩ | ⟨_, rfl⟩ <;> simp at hd
  obtain ⟨n⟩ := d
  rcases n with _ | _ | _ | _ | _ | n
  · exact hstranger (by simp)
  · exact hballot (.observer 4) _ rfl
  · exact hballot (.observer 5) _ rfl
  · exact hballot .call _ rfl
  · exact hballot .alarm _ rfl
  · exact hstranger (by simp)

end Service

end GestureActions
