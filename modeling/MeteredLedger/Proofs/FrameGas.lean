import MeteredLedger.Proofs.FrameConduct

/-!
# Gas is handed down, spent and handed back

A frame hands part of its gas to a nested frame and adds what is left of it afterwards.  As long as
a nested frame never hands back more than it got, a script never ends with more gas than it started
with, and so neither does the frame around it.
-/

namespace MeteredLedger

open Std

/-- Running code leaves no more gas than the frame had. -/
def Exec.SpendsGas (exec : Exec) : Prop := ∀ f input m, (exec f input m).frame.gas ≤ f.gas

/-- An answer hands back no more gas than was asked for. -/
def Dispatcher.SpendsGas (d : Dispatcher) : Prop :=
  ∀ request m, (d request m).1.gasLeft ≤ request.gas

/-- What is left of gas that was handed down is added without going round. -/
theorem Gas.toNat_handBack {gas given left : Gas} (hgiven : given ≤ gas) (hleft : left ≤ given) :
    (gas - given + left).toNat = (gas - given).toNat + left.toNat := by
  have hsub := UInt64.toNat_sub_of_le gas given hgiven
  have hlt := gas.toNat_lt
  rw [UInt64.le_iff_toNat_le] at hgiven hleft
  rw [UInt64.toNat_add, Nat.mod_eq_of_lt (by omega)]

theorem Gas.handBack_le {gas given left : Gas} (hgiven : given ≤ gas) (hleft : left ≤ given) :
    gas - given + left ≤ gas := by
  have hsub := UInt64.toNat_sub_of_le gas given hgiven
  rw [UInt64.le_iff_toNat_le, Gas.toNat_handBack hgiven hleft]
  rw [UInt64.le_iff_toNat_le] at hgiven hleft
  omega

theorem Effect.gas_le {room : World → Prop} {nested : Dispatcher} {f f' : Frame} {m m' : Machine}
    (hnested : nested.SpendsGas) (h : Effect room nested f m f' m') : f'.gas ≤ f.gas := by
  cases h with
  | pay gas hgas => exact hgas
  | nest request hgas hcaller => exact Gas.handBack_le hgas (hnested request m)
  | _ => exact UInt64.le_refl _

theorem Effects.gas_le {room : World → Prop} {nested : Dispatcher} {x y : Frame × Machine}
    (hnested : nested.SpendsGas) (h : Effects room nested x y) : y.1.gas ≤ x.1.gas := by
  induction h with
  | refl => exact UInt64.le_refl _
  | tail _ heffect ih => exact UInt64.le_trans (heffect.gas_le hnested) ih

theorem settledGas_le (result : Except Fault Bytes) (gas : Gas) : settledGas result gas ≤ gas := by
  unfold settledGas
  split
  · exact UInt64.le_refl _
  · split
    · exact UInt64.le_refl _
    · exact UInt64.zero_le

theorem refuse?_gasLeft_le {s : Setting} {m : Machine} {request : Request} {outcome : Outcome}
    (h : refuse? s m request = some outcome) : outcome.gasLeft ≤ request.gas := by
  cases refuse?_refusal h with
  | guarded hro hwrites => exact UInt64.zero_le
  | _ => exact UInt64.le_refl _

theorem Opens.frame_gas {s : Setting} {w w' : World} {request : Request} {frame : Frame}
    {target : Address} {static : Bool} (h : Opens s w request frame target static w') :
    frame.gas = request.gas := by
  cases h <;> rfl

namespace Exec.SpendsGas

variable {exec : Exec} {s : Setting}

theorem runFrame (h : exec.SpendsGas) : (runFrame s exec).SpendsGas := by
  intro f input m
  rcases runFrame_cases s exec f input m with ⟨-, hgas⟩ | ⟨-, hrun⟩
  · exact hgas
  · rw [hrun]
    exact h f input m

theorem deposit_le (address : Address) (run : Run) :
    (deposit s address run).frame.gas ≤ run.frame.gas := by
  rcases deposit_cases s address run with ⟨fault, hdone⟩ | ⟨code, f, -, -, hpay, hdone⟩
  · rw [hdone]
    exact UInt64.le_refl _
  · obtain ⟨hle, rfl⟩ := Frame.pay?_eq_some hpay
    rw [hdone]
    exact UInt64.sub_le hle

theorem answer (h : exec.SpendsGas) : (answer s exec).SpendsGas := by
  intro request m
  have hconduct := answer_conduct s exec (m := m) request
  generalize MeteredLedger.answer s exec request m = answered at hconduct ⊢
  obtain ⟨outcome, m'⟩ := answered
  cases hconduct with
  | refused hrefuse => exact refuse?_gasLeft_le hrefuse
  | idle hentry hworld hro hdepth => exact UInt64.le_refl _
  | called hentry hopen hstart hstartRo hstartDepth hrun hworld hro hdepth =>
      rw [← hopen.frame_gas]
      apply UInt64.le_trans (settledGas_le _ _)
      rw [hrun]
      exact h.runFrame _ _ _
  | spent hentry hnext => exact UInt64.le_refl _
  | collided hentry hnext hworld hro hdepth => exact UInt64.zero_le
  | reserved hentry hnext haddress hfree hworld hro hdepth => exact UInt64.le_refl _
  | created hentry hnext haddress hfree hstart hstartRo hstartDepth hstartCancelled hrun hdone hgas
      hworld hro hdepth =>
      rename_i caller address initCode gas value next start run done gasLeft
      have hrunGas : run.frame.gas ≤ gas := by
        rw [hrun]
        exact h.runFrame _ _ _
      have hdoneGas : done.frame.gas ≤ gas := by
        rw [hdone]
        exact UInt64.le_trans (deposit_le address run) hrunGas
      simp only [Request.gas]
      rw [hgas]
      split
      · exact hdoneGas
      · exact UInt64.le_trans (settledGas_le _ _) hdoneGas

end Exec.SpendsGas

theorem codeRunner_spendsGas {s : Setting} {room : World → Prop} {engine : Engine}
    (hengine : engine.IsEffectful room) (levels : Nat) :
    (codeRunner s engine levels).SpendsGas := by
  induction levels with
  | zero => exact fun _ _ _ ↦ UInt64.le_refl _
  | succ levels ih =>
      intro f input m
      have hnested : (dispatchWithin s engine levels).SpendsGas := by
        rw [dispatchWithin_eq_answer]
        exact ih.answer
      exact (hengine _ f input { m with depth := m.depth + 1 }).gas_le hnested

theorem dispatchWithin_spendsGas {s : Setting} {room : World → Prop} {engine : Engine}
    (hengine : engine.IsEffectful room) (levels : Nat) :
    (dispatchWithin s engine levels).SpendsGas := by
  rw [dispatchWithin_eq_answer]
  exact (codeRunner_spendsGas hengine levels).answer

theorem dispatchWith_spendsGas {s : Setting} {room : World → Prop} {engine : Engine}
    (hengine : engine.IsEffectful room) : (dispatchWith s engine).SpendsGas :=
  fun request m ↦ dispatchWithin_spendsGas hengine _ request m

end MeteredLedger
