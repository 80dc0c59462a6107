import Cs118.Router.System
/-!
# How the world of a running router changes

Every step of the two threads is nothing, one call, one ticker pass, one reset or the
passing of time.  What holds along all runs is proved case by case from here.
-/

namespace Cs118.Router

open Cs118.Lib
open Cs118.Lib.Bytes

inductive Evolves (w : World) : Action → World → Prop
  | receive (packet : Buffer) (inIface : String) : Evolves w (.receive packet inIface) w
  | none : Evolves w .call w
  | call (call : ArpCall) : Evolves w .call (w.perform call).1
  | tick (hfault : w.tick.2 = .none) : Evolves w .tick w.tick.1
  | reset (ports : List Port) : Evolves w (.reset ports) (w.reset ports)
  | elapse (time : Nat) : Evolves w (.elapse time) { w with now := w.now + time }

theorem System.step_evolves {s s' : System} {a : Action} (h : s.step a = some s') :
    Evolves s.world a s'.world := by
  obtain ⟨world, status⟩ := s
  cases a with
  | receive packet inIface =>
      cases status with
      | handling rest => simp [System.step] at h
      | idle =>
          simp only [System.step, Option.map_eq_some_iff] at h
          obtain ⟨next, -, rfl⟩ := h
          exact .receive packet inIface
  | call =>
      cases status with
      | idle => simp [System.step] at h
      | handling rest =>
          simp only [System.step, Option.map_eq_some_iff] at h
          obtain ⟨next, -, rfl⟩ := h
          cases rest with
          | pure => exact .none
          | throw fault => exact .none
          | call op k =>
              have hworld : (Script.resume World.perform world (.call op k)).1 =
                  (world.perform op).1 := by
                rcases hop : world.perform op with ⟨mid, fault | reply⟩ <;>
                  simp [Script.resume, hop]
              dsimp only
              rw [hworld]
              exact .call op
  | tick =>
      rcases htick : world.tick with ⟨next, fault | fault⟩
      · have hfault : world.tick.2 = .none := by rw [htick]
        have hnext : next = world.tick.1 := by rw [htick]
        simp only [System.step, htick, Option.some.injEq] at h
        rw [← h, hnext]
        exact .tick hfault
      · simp [System.step, htick] at h
  | reset ports =>
      cases status with
      | handling rest => simp [System.step] at h
      | idle =>
          simp only [System.step, Option.some.injEq] at h
          rw [← h]
          exact .reset ports
  | elapse time =>
      simp only [System.step, Option.some.injEq] at h
      rw [← h]
      exact .elapse time

theorem World.perform_keeps (w : World) (call : ArpCall) :
    (w.perform call).1.router.tables = w.router.tables ∧
      (w.perform call).1.router.ifNameToIpMap = w.router.ifNameToIpMap ∧
        (w.perform call).1.now = w.now := by
  cases call <;> exact ⟨rfl, rfl, rfl⟩

end Cs118.Router
