import Cs118.Router.TableFile
/-!
# What a routing table file becomes

The field buffers survive from line to line.  A line with fewer than four fields is
completed with the fields of the lines before it, or with what the stack held.
-/

namespace Cs118.Router

open Cs118.Lib
open Cs118.Lib.Bytes
open Cs118.Lib.Text

/-! ## The law -/

/-- At least four fields, and addresses in the first three. -/
def WellFormed (line : Buffer) : Prop :=
  4 ≤ (words line).length ∧ ∀ word ∈ (words line).take 3, (Text.inetAton word).isSome

def ownEntry (line : Buffer) : Option RoutingTableEntry :=
  match words line with
  | dest :: gw :: mask :: iface :: _ =>
    match Text.inetAton dest, Text.inetAton gw, Text.inetAton mask with
    | some dest, some gw, some mask => some ⟨dest, gw, mask, asString iface⟩
    | _, _, _ => none
  | _ => none

def filledLines (file : Buffer) : List Buffer := (lines file).filter fun line => words line ≠ []

/-- `load` accepts the file if its filled lines are well formed, and then the table has
the entries of these lines, in their order, whatever the stack held. -/
def LoadsOwnFields (file : Buffer) : Prop :=
  ∀ fields, ∃ loaded, RoutingTable.load ⟨[]⟩ fields (some file) = .ok loaded ∧
    (loaded.returned = true ↔ ∀ line ∈ filledLines file, WellFormed line) ∧
    (loaded.returned = true → loaded.table.entries.map some = (filledLines file).map ownEntry)

/-- A text whose lines fit `line` and whose fields fit their buffers. -/
structure FitsBuffers (file : Buffer) : Prop where
  isText : 0 ∉ file
  shortLines : ∀ line ∈ lines file, line.length < bufsiz
  shortFields : ∀ line ∈ lines file, ∀ word ∈ words line, word.length < fieldSize

def AllFull (lines : List Buffer) : Prop := ∀ line ∈ lines, 4 ≤ (words line).length

/-- Some line has no address where it has one of its first three fields. -/
def SomeRejected (lines : List Buffer) : Prop :=
  ∃ line ∈ lines, ∃ word ∈ (words line).take 3, Text.inetAton word = none

/-! ## One line -/

def FieldBuffers.after (fields : FieldBuffers) (line : Buffer) : FieldBuffers where
  dest := ((words line)[0]?).getD fields.dest
  gw := ((words line)[1]?).getD fields.gw
  mask := ((words line)[2]?).getD fields.mask
  iface := ((words line)[3]?).getD fields.iface

theorem store_of_lt {word : Buffer} (h : word.length < fieldSize) : store word = .ok word :=
  if_pos h

theorem scanFields_eq {line : Buffer} (fields : FieldBuffers)
    (h : ∀ word ∈ words line, word.length < fieldSize) :
    scanFields line fields = .ok (fields.after line) := by
  unfold scanFields FieldBuffers.after
  cases hdest : scanString line with
  | none =>
      rw [words_eq_nil hdest]
      rfl
  | some found =>
      obtain ⟨dest, rest⟩ := found
      rw [words_eq_cons hdest] at h ⊢
      dsimp only
      rw [store_of_lt (h dest (by simp))]
      dsimp only [bind, Except.bind]
      cases hgw : scanString rest with
      | none =>
          rw [words_eq_nil hgw]
          rfl
      | some found =>
          obtain ⟨gw, rest⟩ := found
          rw [words_eq_cons hgw] at h ⊢
          dsimp only
          rw [store_of_lt (h gw (by simp))]
          dsimp only
          cases hmask : scanString rest with
          | none =>
              rw [words_eq_nil hmask]
              rfl
          | some found =>
              obtain ⟨mask, rest⟩ := found
              rw [words_eq_cons hmask] at h ⊢
              dsimp only
              rw [store_of_lt (h mask (by simp))]
              dsimp only
              cases hiface : scanString rest with
              | none =>
                  rw [words_eq_nil hiface]
                  rfl
              | some found =>
                  obtain ⟨iface, rest⟩ := found
                  rw [words_eq_cons hiface] at h ⊢
                  dsimp only
                  rw [store_of_lt (h iface (by simp))]
                  rfl

structure FieldBuffers.Accepted (fields : FieldBuffers) : Prop where
  dest : (Text.inetAton fields.dest).isSome
  gw : (Text.inetAton fields.gw).isSome
  mask : (Text.inetAton fields.mask).isSome

theorem FieldBuffers.accepted_iff (fields : FieldBuffers) :
    fields.Accepted ↔ ∃ entry, fields.entry = .ok entry := by
  unfold FieldBuffers.entry
  constructor
  · rintro ⟨hdest, hgw, hmask⟩
    obtain ⟨dest, hdest⟩ := Option.isSome_iff_exists.mp hdest
    obtain ⟨gw, hgw⟩ := Option.isSome_iff_exists.mp hgw
    obtain ⟨mask, hmask⟩ := Option.isSome_iff_exists.mp hmask
    rw [hdest, hgw, hmask]
    exact ⟨_, rfl⟩
  · rintro ⟨entry, h⟩
    cases hdest : Text.inetAton fields.dest with
    | none => simp [hdest] at h
    | some dest =>
        cases hgw : Text.inetAton fields.gw with
        | none => simp [hdest, hgw] at h
        | some gw =>
            cases hmask : Text.inetAton fields.mask with
            | none => simp [hdest, hgw, hmask] at h
            | some mask => exact ⟨by rw [hdest]; rfl, by rw [hgw]; rfl, by rw [hmask]; rfl⟩

theorem not_accepted_after {line word : Buffer} (fields : FieldBuffers)
    (hword : word ∈ (words line).take 3) (hrejected : Text.inetAton word = none) :
    ¬ (fields.after line).Accepted := by
  rintro ⟨hdest, hgw, hmask⟩
  unfold FieldBuffers.after at *
  rcases hwords : words line with _ | ⟨dest, _ | ⟨gw, _ | ⟨mask, rest⟩⟩⟩ <;>
    simp [hwords] at hword hdest hgw hmask
  · simp [hword ▸ hrejected] at hdest
  · rcases hword with rfl | rfl
    · simp [hrejected] at hdest
    · simp [hrejected] at hgw
  · rcases hword with rfl | rfl | rfl
    · simp [hrejected] at hdest
    · simp [hrejected] at hgw
    · simp [hrejected] at hmask

theorem FieldBuffers.Accepted.after {fields : FieldBuffers} (h : fields.Accepted) {line : Buffer}
    (hline : ∀ word ∈ (words line).take 3, Text.inetAton word ≠ none) :
    (fields.after line).Accepted := by
  have hfield : ∀ i < 3, ∀ old, (Text.inetAton old).isSome →
      (Text.inetAton (((words line)[i]?).getD old)).isSome := by
    intro i hi old hold
    cases hword : (words line)[i]? with
    | none => exact hold
    | some word =>
        have hmem : word ∈ (words line).take 3 := by
          apply List.mem_of_getElem? (i := i)
          rw [List.getElem?_take_of_lt hi, hword]
        exact Option.isSome_iff_ne_none.mpr (hline word hmem)
  exact ⟨hfield 0 (by omega) _ h.dest, hfield 1 (by omega) _ h.gw, hfield 2 (by omega) _ h.mask⟩

theorem after_of_full {line : Buffer} (fields : FieldBuffers) (h : 4 ≤ (words line).length) :
    ∃ dest gw mask iface rest, words line = dest :: gw :: mask :: iface :: rest ∧
      fields.after line = ⟨dest, gw, mask, iface⟩ := by
  unfold FieldBuffers.after
  rcases hwords : words line with _ | ⟨dest, _ | ⟨gw, _ | ⟨mask, _ | ⟨iface, rest⟩⟩⟩⟩
  · simp [hwords] at h
  · simp [hwords] at h
  · simp [hwords] at h
  · simp [hwords] at h
  · exact ⟨dest, gw, mask, iface, rest, rfl, rfl⟩

theorem wellFormed_iff_accepted {line : Buffer} (fields : FieldBuffers)
    (h : 4 ≤ (words line).length) : WellFormed line ↔ (fields.after line).Accepted := by
  obtain ⟨dest, gw, mask, iface, rest, hwords, hafter⟩ := after_of_full fields h
  rw [WellFormed, hafter, hwords]
  constructor
  · rintro ⟨-, haddresses⟩
    exact ⟨haddresses dest (by simp), haddresses gw (by simp), haddresses mask (by simp)⟩
  · rintro ⟨hdest, hgw, hmask⟩
    refine ⟨by simp, fun word hword => ?_⟩
    simp only [List.take_succ_cons, List.take_zero, List.mem_cons, List.not_mem_nil,
      or_false] at hword
    rcases hword with rfl | rfl | rfl
    · exact hdest
    · exact hgw
    · exact hmask

theorem ownEntry_of_entry {line : Buffer} {fields : FieldBuffers} {entry : RoutingTableEntry}
    (hfull : 4 ≤ (words line).length) (h : (fields.after line).entry = .ok entry) :
    ownEntry line = some entry := by
  obtain ⟨dest, gw, mask, iface, rest, hwords, hafter⟩ := after_of_full fields hfull
  have haccepted := (FieldBuffers.accepted_iff _).mpr ⟨entry, h⟩
  rw [hafter] at h haccepted
  obtain ⟨destAddr, hdest⟩ := Option.isSome_iff_exists.mp haccepted.dest
  obtain ⟨gwAddr, hgw⟩ := Option.isSome_iff_exists.mp haccepted.gw
  obtain ⟨maskAddr, hmask⟩ := Option.isSome_iff_exists.mp haccepted.mask
  dsimp only at hdest hgw hmask
  rw [FieldBuffers.entry] at h
  dsimp only at h
  rw [hdest, hgw, hmask] at h
  rw [ownEntry, hwords]
  dsimp only
  rw [hdest, hgw, hmask, ← Except.ok.inj h]

/-! ## The loop -/

structure Readable (line : Buffer) : Prop where
  text : cString line = line
  fields : ∀ word ∈ words line, word.length < fieldSize

section

variable {fields : FieldBuffers} {line : Buffer} {rest : List Buffer}

theorem loadLines_ok (table : RoutingTable) (hline : Readable line) {entry : RoutingTableEntry}
    (h : (fields.after line).entry = .ok entry) :
    loadLines table fields (line :: rest) =
      loadLines (table.addEntry entry) (fields.after line) rest := by
  rw [loadLines, hline.text, scanFields_eq fields hline.fields]
  dsimp only
  rw [h]

theorem loadLines_rejects (table : RoutingTable) (rest : List Buffer) (hline : Readable line)
    (h : ¬ (fields.after line).Accepted) :
    ∃ loaded, loadLines table fields (line :: rest) = .ok loaded ∧ loaded.returned = false := by
  rw [loadLines, hline.text, scanFields_eq fields hline.fields]
  dsimp only
  cases hentry : (fields.after line).entry with
  | error field => exact ⟨_, rfl, rfl⟩
  | ok entry => exact absurd ((FieldBuffers.accepted_iff _).mpr ⟨entry, hentry⟩) h

theorem loadLines_full (table : RoutingTable) (fields : FieldBuffers)
    (hlines : ∀ line ∈ rest, Readable line) (hfull : AllFull rest) :
    ∃ loaded, loadLines table fields rest = .ok loaded ∧
      (loaded.returned = true ↔ ∀ line ∈ rest, WellFormed line) ∧
      (loaded.returned = true →
        loaded.table.entries.map some = table.entries.map some ++ rest.map ownEntry) := by
  induction rest generalizing table fields with
  | nil => exact ⟨_, rfl, iff_of_true rfl (by simp), fun _ => by simp⟩
  | cons line rest ih =>
      have hline := hlines line List.mem_cons_self
      have hmore := hfull line List.mem_cons_self
      have hwell := wellFormed_iff_accepted fields hmore
      by_cases haccepted : (fields.after line).Accepted
      · obtain ⟨entry, hentry⟩ := (FieldBuffers.accepted_iff _).mp haccepted
        obtain ⟨loaded, hload, hreturned, hentries⟩ := ih
          (table.addEntry entry) (fields.after line)
          (fun other hother => hlines other (List.mem_cons_of_mem _ hother))
          (fun other hother => hfull other (List.mem_cons_of_mem _ hother))
        refine ⟨loaded, (loadLines_ok table hline hentry).trans hload, ?_, fun htrue => ?_⟩
        · rw [hreturned, List.forall_mem_cons]
          exact ⟨fun h => ⟨hwell.mpr haccepted, h⟩, And.right⟩
        · rw [hentries htrue, List.map_cons, ownEntry_of_entry hmore hentry,
            RoutingTable.addEntry]
          simp
      · obtain ⟨loaded, hload, hfalse⟩ := loadLines_rejects table rest hline haccepted
        refine ⟨loaded, hload, iff_of_false (by simp [hfalse]) fun h => ?_, by simp [hfalse]⟩
        exact haccepted (hwell.mp (h line List.mem_cons_self))

theorem loadLines_rejected (table : RoutingTable) (fields : FieldBuffers)
    (hlines : ∀ line ∈ rest, Readable line) (h : SomeRejected rest) :
    ∃ loaded, loadLines table fields rest = .ok loaded ∧ loaded.returned = false := by
  obtain ⟨bad, hbad, word, hword, hrejected⟩ := h
  induction rest generalizing table fields with
  | nil => simp at hbad
  | cons line rest ih =>
      have hline := hlines line List.mem_cons_self
      by_cases haccepted : (fields.after line).Accepted
      · obtain ⟨entry, hentry⟩ := (FieldBuffers.accepted_iff _).mp haccepted
        rw [loadLines_ok table hline hentry]
        rcases List.mem_cons.mp hbad with rfl | hbad
        · exact absurd haccepted (not_accepted_after fields hword hrejected)
        · exact ih _ _ (fun other hother => hlines other (List.mem_cons_of_mem _ hother)) hbad
      · exact loadLines_rejects table rest hline haccepted

theorem loadLines_accepted (table : RoutingTable)
    (hlines : ∀ line ∈ rest, Readable line) (h : ¬ SomeRejected rest)
    (haccepted : fields.Accepted) :
    ∃ loaded, loadLines table fields rest = .ok loaded ∧ loaded.returned = true ∧
      loaded.table.entries.length = table.entries.length + rest.length := by
  induction rest generalizing table fields with
  | nil => exact ⟨_, rfl, rfl, rfl⟩
  | cons line rest ih =>
      have hown : ∀ word ∈ (words line).take 3, Text.inetAton word ≠ none :=
        fun word hword hrejected => h ⟨line, List.mem_cons_self, word, hword, hrejected⟩
      have hafter := haccepted.after hown
      obtain ⟨entry, hentry⟩ := (FieldBuffers.accepted_iff _).mp hafter
      obtain ⟨loaded, hload, hreturned, hlength⟩ := ih (table.addEntry entry)
        (fun other hother => hlines other (List.mem_cons_of_mem _ hother))
        (fun ⟨other, hother, hrejected⟩ => h ⟨other, List.mem_cons_of_mem _ hother, hrejected⟩)
        hafter
      refine ⟨loaded, (loadLines_ok table (hlines line List.mem_cons_self) hentry).trans hload,
        hreturned, ?_⟩
      rw [hlength, RoutingTable.addEntry, List.length_append, List.length_cons, List.length_nil,
        List.length_cons]
      omega

end

/-! ## Main result -/

theorem FitsBuffers.readable {file line : Buffer} (h : FitsBuffers file)
    (hline : line ∈ lines file) : Readable line where
  text := cString_eq_self fun hzero => h.isText (mem_of_mem_lines hline hzero)
  fields := h.shortFields line hline

theorem load_eq {file : Buffer} (h : FitsBuffers file) (fields : FieldBuffers) :
    RoutingTable.load ⟨[]⟩ fields (some file) = loadLines ⟨[]⟩ fields (lines file) := by
  rw [RoutingTable.load, reads_eq_lines h.shortLines (length_lines_le file)]

theorem filledLines_of_full {file : Buffer} (h : AllFull (lines file)) :
    filledLines file = lines file := by
  rw [filledLines, List.filter_eq_self]
  intro line hline
  have hfull := h line hline
  simp only [ne_eq, decide_eq_true_eq]
  intro hnil
  simp [hnil] at hfull

def zeroFields : FieldBuffers := ⟨[0x30], [0x30], [0x30], []⟩

theorem zeroFields_accepted : zeroFields.Accepted := by
  refine ⟨?_, ?_, ?_⟩ <;> decide +kernel

/-- With addresses on the stack, a short line is completed or a blank one makes an entry. -/
theorem not_loadsOwnFields {file : Buffer} (h : FitsBuffers file)
    (hshort : ¬ AllFull (lines file)) (hnone : ¬ SomeRejected (lines file)) :
    ¬ LoadsOwnFields file := by
  intro hloads
  obtain ⟨loaded, hload, hreturned, hentries⟩ := hloads zeroFields
  obtain ⟨loaded', hload', htrue, hlength⟩ := loadLines_accepted ⟨[]⟩
    (fun _ => h.readable) hnone zeroFields_accepted
  obtain rfl : loaded' = loaded := Except.ok.inj (hload'.symm.trans ((load_eq h _).symm.trans hload))
  have hwell := hreturned.mp htrue
  have hcount : (filledLines file).length = (lines file).length := by
    have hlengths := congrArg List.length (hentries htrue)
    rw [List.length_map, List.length_map, hlength] at hlengths
    simpa using hlengths.symm
  have hall : ∀ line ∈ lines file, words line ≠ [] := by
    simpa using List.length_filter_eq_length_iff.mp hcount
  apply hshort
  intro line hline
  exact (hwell line (List.mem_filter.mpr ⟨hline, by simpa using hall line hline⟩)).1

/-- A file is loaded by the fields of its own lines exactly when all its lines are full, or
one of its fields is rejected anyway. -/
theorem loads_own_fields_iff {file : Buffer} (h : FitsBuffers file) :
    LoadsOwnFields file ↔ AllFull (lines file) ∨ SomeRejected (lines file) := by
  constructor
  · intro hloads
    by_contra hneither
    rw [not_or] at hneither
    exact not_loadsOwnFields h hneither.1 hneither.2 hloads
  · rintro (hfull | hrejected)
    · intro fields
      rw [load_eq h, filledLines_of_full hfull]
      exact loadLines_full ⟨[]⟩ fields (fun _ => h.readable) hfull
    · intro fields
      obtain ⟨loaded, hload, hfalse⟩ := loadLines_rejected ⟨[]⟩ fields
        (fun _ => h.readable) hrejected
      refine ⟨loaded, (load_eq h fields).trans hload, iff_of_false (by simp [hfalse]) ?_,
        by simp [hfalse]⟩
      obtain ⟨line, hline, word, hword, hnone⟩ := hrejected
      intro hwell
      have hne : words line ≠ [] := fun hnil => by simp [hnil] at hword
      have haddress := (hwell line (List.mem_filter.mpr ⟨hline, by simpa using hne⟩)).2 word hword
      rw [hnone] at haddress
      exact absurd haddress (by decide)

def projectRtable : Buffer :=
  bytesOf ("0.0.0.0  \t10.0.1.100  \t0.0.0.0 \tsw0-eth3\n" ++
    "192.168.2.2 \t192.168.2.2 \t255.255.255.0\tsw0-eth1\n" ++
    "172.64.3.10  \t172.64.3.10  \t255.255.0.0 \tsw0-eth2\n")

theorem loads_own_fields_projectRtable : LoadsOwnFields projectRtable :=
  (loads_own_fields_iff ⟨by decide +kernel, by decide +kernel, by decide +kernel⟩).mpr
    (Or.inl (by unfold AllFull; decide +kernel))

def routeLine : Buffer :=
  [0x30, 0x2e, 0x30, 0x2e, 0x30, 0x2e, 0x30, 0x20, 0x31, 0x30, 0x2e, 0x30, 0x2e, 0x31, 0x2e, 0x31,
    0x30, 0x30, 0x20, 0x30, 0x2e, 0x30, 0x2e, 0x30, 0x2e, 0x30, 0x20, 0x73, 0x77, 0x30, 0x2d, 0x65,
    0x74, 0x68, 0x33, 0x0a]

/-- A blank line at the end makes the route appear twice. -/
theorem blank_line_repeats_route :
    FitsBuffers (routeLine ++ [newline]) ∧ ¬ LoadsOwnFields (routeLine ++ [newline]) := by
  have hfits : FitsBuffers (routeLine ++ [newline]) :=
    ⟨by decide +kernel, by decide +kernel, by decide +kernel⟩
  refine ⟨hfits, not_loadsOwnFields hfits ?_ ?_⟩
  · unfold AllFull
    decide +kernel
  · unfold SomeRejected
    decide +kernel

end Cs118.Router
