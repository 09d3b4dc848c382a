import GestureActions.Proofs.Observer.Holdings
import GestureActions.Proofs.System.Alone

/-! # Balanced standings

A standing is balanced if its member's calls take and give back each holding in turns and
leave it with what the member holds by its state. Being told a message keeps a standing
balanced, and so does every stimulus.
-/
namespace GestureActions

open Request

namespace Standing

theorem told_eq_moved (now : Instant) (m : Message) (s : Standing) :
    s.told now m = s.moved (s.member.react now m).next (s.member.react now m).requests := rfl

structure Balanced (s : Standing) : Prop where
  fit : s.member.Fit
  calls : ∀ h : Holding, alternation? false (h.changes s.calls) = some (s.member.holds h)
  hears : ∀ t, s.hears t = s.member.holds (.sensor t)

theorem Balanced.moved {s : Standing} (hs : s.Balanced) {k : Member} (hk : k.Fit) {qs : List Request}
    (hq : ∀ h : Holding, alternation? (s.member.holds h) (h.asked qs) = some (k.holds h)) :
    (s.moved k qs).Balanced where
  fit := hk
  calls h := by
    change alternation? false (h.changes (s.calls ++ qs.filterMap Request.call?)) = some (k.holds h)
    rw [h.changes_append, alternation?_append, hs.calls h, Option.bind_some]
    exact hq h
  hears t := by
    change qs.foldl (Request.hears t) (s.hears t) = k.holds (.sensor t)
    rw [Holding.foldl_hears, hs.hears t]
    exact getLastD_of_alternation? (hq (.sensor t))

theorem Balanced.told {s : Standing} (hs : s.Balanced) (now : Instant) (m : Message) : (s.told now m).Balanced := by
  have hr := Member.trades_react now m hs.fit
  rw [told_eq_moved]
  refine hs.moved hr.fit fun h => ?_
  rw [Reaction.requests, hr.asked_eq hr.after]
  exact hr.trade h

theorem Balanced.met {s : Standing} (hs : s.Balanced) (now : Instant) (p : Party) (x : Stimulus) :
    (s.met now p x).Balanced := by
  unfold Standing.met
  split
  · exact hs
  · split
    · exact hs.told now _
    · exact hs

end Standing

end GestureActions
