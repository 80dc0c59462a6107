import Cs118.Tcp.Endpoints
/-!
# The timeout of the server

`timeout` is set once, before the loop, and `select` leaves in it what it has not waited.
So the ten seconds are for the whole connection.
-/

namespace Cs118.Tcp

open Cs118.Lib.Bytes

/-- What one `recv` gives, `wait` after the one before. -/
structure Chunk where
  wait : Nat
  bytes : Buffer
  nonempty : bytes ≠ []
  fits : bytes.length ≤ bufSize

def arrivals (chunks : List Chunk) (closeWait : Nat) : List (Wait × Option Buffer) :=
  chunks.map (fun chunk => (.ready chunk.wait, some chunk.bytes)) ++
    [(.ready closeWait, some [])]

def contents (chunks : List Chunk) : Buffer := (chunks.map (·.bytes)).flatten

def totalWait (chunks : List Chunk) (closeWait : Nat) : Nat :=
  (chunks.map (·.wait)).sum + closeWait

/-- The handler does not take its timeout branch, and the file is what has arrived. -/
structure Receives (chunks : List Chunk) (closeWait : Nat) : Prop where
  inTime : (connectionHandler Handler.start (arrivals chunks closeWait)).status ≠ .timedOut
  file : (connectionHandler Handler.start (arrivals chunks closeWait)).file = contents chunks

section

variable {timeout : Nat} {file : Buffer} {chunk : Chunk} {rest : List (Wait × Option Buffer)}

/-! ## One wait -/

theorem connectionHandler_expired {wait : Nat} (h : timeout < wait) (received : Option Buffer) :
    connectionHandler ⟨timeout, file, .receiving⟩ ((.ready wait, received) :: rest) =
      ⟨0, errorMark, .timedOut⟩ := by
  rw [connectionHandler, Handler.step, select, if_neg (Nat.not_le.mpr h)]
  cases rest <;> rfl

theorem connectionHandler_chunk (h : chunk.wait ≤ timeout) :
    connectionHandler ⟨timeout, file, .receiving⟩
        ((.ready chunk.wait, some chunk.bytes) :: rest) =
      connectionHandler ⟨timeout - chunk.wait, file ++ chunk.bytes, .receiving⟩ rest := by
  obtain ⟨first, others, hbytes⟩ := List.exists_cons_of_ne_nil chunk.nonempty
  rw [connectionHandler, Handler.step, select, if_pos h, hbytes]

theorem connectionHandler_close {wait : Nat} (h : wait ≤ timeout) :
    connectionHandler ⟨timeout, file, .receiving⟩ [(.ready wait, some [])] =
      ⟨timeout - wait, file, .finished⟩ := by
  rw [connectionHandler, Handler.step, select, if_pos h, connectionHandler]

/-! ## The loop -/

theorem connectionHandler_arrivals (chunks : List Chunk) (closeWait timeout : Nat)
    (file : Buffer) :
    connectionHandler ⟨timeout, file, .receiving⟩ (arrivals chunks closeWait) =
      if totalWait chunks closeWait ≤ timeout then
        ⟨timeout - totalWait chunks closeWait, file ++ contents chunks, .finished⟩
      else ⟨0, errorMark, .timedOut⟩ := by
  induction chunks generalizing timeout file with
  | nil =>
      have htotal : totalWait [] closeWait = closeWait := Nat.zero_add closeWait
      have hcontents : file ++ contents [] = file := List.append_nil file
      have harrivals : arrivals [] closeWait = [(.ready closeWait, some [])] := rfl
      rw [htotal, hcontents, harrivals]
      by_cases hclose : closeWait ≤ timeout
      · rw [if_pos hclose, connectionHandler_close hclose]
      · rw [if_neg hclose, connectionHandler_expired (Nat.not_le.mp hclose)]
  | cons chunk chunks ih =>
      have htotal : totalWait (chunk :: chunks) closeWait =
          chunk.wait + totalWait chunks closeWait := by
        rw [totalWait, List.map_cons, List.sum_cons, Nat.add_assoc, ← totalWait]
      have harrivals : arrivals (chunk :: chunks) closeWait =
          (.ready chunk.wait, some chunk.bytes) :: arrivals chunks closeWait := rfl
      rw [htotal, harrivals]
      by_cases hwait : chunk.wait ≤ timeout
      · have hle : chunk.wait + totalWait chunks closeWait ≤ timeout ↔
            totalWait chunks closeWait ≤ timeout - chunk.wait := by omega
        rw [connectionHandler_chunk hwait, ih, Nat.sub_sub, List.append_assoc]
        simp only [hle]
        rfl
      · rw [connectionHandler_expired (Nat.not_le.mp hwait), if_neg (by omega)]

end

/-- The handler receives the chunks exactly when all its waits, the one for the close
included, add up to ten seconds at most. -/
theorem receives_iff (chunks : List Chunk) (closeWait : Nat) :
    Receives chunks closeWait ↔ totalWait chunks closeWait ≤ seconds 10 := by
  have hrun : connectionHandler Handler.start (arrivals chunks closeWait) = _ :=
    connectionHandler_arrivals chunks closeWait (seconds 10) []
  constructor
  · intro h
    by_contra hlong
    rw [if_neg hlong] at hrun
    exact h.inTime (congrArg Handler.status hrun)
  · intro hshort
    rw [if_pos hshort, List.nil_append] at hrun
    refine ⟨fun hlate => ?_, congrArg Handler.file hrun⟩
    have hstatus := (congrArg Handler.status hrun).symm.trans hlate
    exact absurd hstatus (by simp)

def slowByte (byte : UInt8) : Chunk where
  wait := seconds 6
  bytes := [byte]
  nonempty := by simp
  fits := by
    rw [List.length_singleton]
    decide

/-- Two of them are too many, though no wait is longer than six seconds. -/
theorem slow_bytes_time_out :
    (∀ chunk ∈ [slowByte 7, slowByte 8], chunk.wait < seconds 10) ∧
      (connectionHandler Handler.start (arrivals [slowByte 7, slowByte 8] 0)).file = errorMark ∧
      ¬ Receives [slowByte 7, slowByte 8] 0 := by
  have hrun : connectionHandler Handler.start (arrivals [slowByte 7, slowByte 8] 0) =
      ⟨0, errorMark, .timedOut⟩ := by
    decide +kernel
  refine ⟨by decide +kernel, by rw [hrun], fun h => h.inTime ?_⟩
  rw [hrun]

end Cs118.Tcp
