import Cs118.Router.Printing
import Cs118.Router.Proofs.Loading
import Cs118.Router.System
/-!
# The routing table printed and loaded again

The entries that `operator<<` prints are lines `load` reads back as they were, one for
each entry and in their order.  With its header line the same text is refused.
-/

namespace Cs118.Router

open Cs118.Lib
open Cs118.Lib.Bytes
open Cs118.Lib.Text

structure IsField (word : Buffer) : Prop where
  isWord : IsWord word
  isText : 0 ∉ word
  short : word.length < fieldSize

/-- The names of the interfaces can be read as fields. -/
def Printable (entries : List RoutingTableEntry) : Prop :=
  ∀ entry ∈ entries, ∃ name, entry.ifName = asString name ∧ IsField name

/-! ## One line -/

theorem isField_ipToString (ip : UInt32) : IsField (ipToString ip) where
  isWord := isWord_ipToString ip
  isText := fun hzero => (ipToString_chars hzero).2 rfl
  short := by
    have hlength := length_ipToString_le ip
    unfold fieldSize
    omega

theorem tab_isSpace : isSpace tab = true := by decide

theorem newline_isSpace : isSpace newline = true := by decide

theorem IsField.newline_notMem {word : Buffer} (h : IsField word) : newline ∉ word := by
  intro hmem
  have hsolid := h.isWord.solid newline hmem
  rw [newline_isSpace] at hsolid
  exact absurd hsolid (by decide)

section

variable {entry : RoutingTableEntry} {name : Buffer}

theorem print_eq (hname : entry.ifName = asString name) (rest : Buffer) :
    entry.print ++ newline :: rest =
      ipToString entry.dest ++ tab :: (tab :: (ipToString entry.gw ++ tab ::
        (ipToString entry.mask ++ tab :: (name ++ newline :: rest)))) := by
  unfold RoutingTableEntry.print
  rw [hname, bytesOf_asString]
  simp only [List.append_assoc, List.cons_append, List.nil_append]

theorem words_print (hname : entry.ifName = asString name) (h : IsField name) :
    words (entry.print ++ [newline]) =
      [ipToString entry.dest, ipToString entry.gw, ipToString entry.mask, name] := by
  rw [print_eq hname, words_append (isWord_ipToString _) tab_isSpace, words_cons_space tab_isSpace,
    words_append (isWord_ipToString _) tab_isSpace, words_append (isWord_ipToString _) tab_isSpace,
    words_append h.isWord newline_isSpace]
  rfl

theorem print_chars (hname : entry.ifName = asString name) {c : UInt8} (hc : c ∈ entry.print) :
    c = tab ∨ (∃ ip, c ∈ ipToString ip) ∨ c ∈ name := by
  unfold RoutingTableEntry.print at hc
  rw [hname, bytesOf_asString] at hc
  simp only [List.mem_append, List.mem_cons, List.not_mem_nil, or_false, or_self] at hc
  rcases hc with (((((hc | hc) | hc) | hc) | hc) | hc) | hc
  · exact Or.inr (Or.inl ⟨_, hc⟩)
  · exact Or.inl hc
  · exact Or.inr (Or.inl ⟨_, hc⟩)
  · exact Or.inl hc
  · exact Or.inr (Or.inl ⟨_, hc⟩)
  · exact Or.inl hc
  · exact Or.inr (Or.inr hc)

theorem newline_notMem_print (hname : entry.ifName = asString name) (h : IsField name) :
    newline ∉ entry.print := by
  intro hmem
  rcases print_chars hname hmem with htab | ⟨ip, hip⟩ | hname
  · exact absurd htab (by decide)
  · exact (isField_ipToString ip).newline_notMem hip
  · exact h.newline_notMem hname

theorem zero_notMem_print (hname : entry.ifName = asString name) (h : IsField name) :
    0 ∉ entry.print := by
  intro hmem
  rcases print_chars hname hmem with htab | ⟨ip, hip⟩ | hname
  · exact absurd htab (by decide)
  · exact (isField_ipToString ip).isText hip
  · exact h.isText hname

theorem length_print_lt (hname : entry.ifName = asString name) (h : IsField name) :
    (entry.print ++ [newline]).length < bufsiz := by
  have hdest := length_ipToString_le entry.dest
  have hgw := length_ipToString_le entry.gw
  have hmask := length_ipToString_le entry.mask
  have hshort := h.short
  unfold fieldSize at hshort
  unfold RoutingTableEntry.print bufsiz
  rw [hname, bytesOf_asString]
  simp only [List.length_append, List.length_cons, List.length_nil]
  omega

theorem readable_print (hname : entry.ifName = asString name) (h : IsField name) :
    Readable (entry.print ++ [newline]) where
  text := cString_eq_self fun hzero => by
    rcases List.mem_append.mp hzero with hzero | hzero
    · exact zero_notMem_print hname h hzero
    · exact absurd (List.mem_singleton.mp hzero) (by decide)
  fields := by
    rw [words_print hname h]
    intro word hword
    simp only [List.mem_cons, List.not_mem_nil, or_false] at hword
    rcases hword with rfl | rfl | rfl | rfl
    · exact (isField_ipToString _).short
    · exact (isField_ipToString _).short
    · exact (isField_ipToString _).short
    · exact h.short

theorem entry_after_print (hname : entry.ifName = asString name) (h : IsField name)
    (fields : FieldBuffers) : (fields.after (entry.print ++ [newline])).entry = .ok entry := by
  have hafter : fields.after (entry.print ++ [newline]) =
      ⟨ipToString entry.dest, ipToString entry.gw, ipToString entry.mask, name⟩ := by
    unfold FieldBuffers.after
    rw [words_print hname h]
    rfl
  rw [hafter, FieldBuffers.entry]
  dsimp only
  rw [inetAton_ipToString, inetAton_ipToString, inetAton_ipToString, ← hname]

end

/-! ## All lines -/

theorem lines_printEntries {entries : List RoutingTableEntry} (h : Printable entries) :
    lines (printEntries entries) = entries.map fun entry => entry.print ++ [newline] := by
  induction entries with
  | nil => rfl
  | cons entry rest ih =>
      obtain ⟨name, hname, hfield⟩ := h entry List.mem_cons_self
      have hprint : printEntries (entry :: rest) =
          entry.print ++ newline :: printEntries rest := by
        unfold printEntries
        rw [List.flatMap_cons, List.append_assoc, List.singleton_append]
      rw [hprint, lines_append (newline_notMem_print hname hfield),
        ih fun other hother => h other (List.mem_cons_of_mem _ hother), List.map_cons]

theorem loadLines_print {entries : List RoutingTableEntry} (h : Printable entries)
    (base : RoutingTable) (fields : FieldBuffers) :
    loadLines base fields (entries.map fun entry => entry.print ++ [newline]) =
      .ok ⟨true, ⟨base.entries ++ entries⟩, []⟩ := by
  induction entries generalizing base fields with
  | nil => rw [List.map_nil, loadLines, List.append_nil]
  | cons entry rest ih =>
      obtain ⟨name, hname, hfield⟩ := h entry List.mem_cons_self
      rw [List.map_cons, loadLines_ok base (readable_print hname hfield)
        (entry_after_print hname hfield fields),
        ih fun other hother => h other (List.mem_cons_of_mem _ hother), RoutingTable.addEntry]
      simp

theorem load_eq_loadLines {text : Buffer} (h : ∀ line ∈ lines text, line.length < bufsiz)
    (base : RoutingTable) (fields : FieldBuffers) :
    base.load fields (some text) = loadLines base fields (lines text) := by
  rw [RoutingTable.load, reads_eq_lines h (length_lines_le text)]

theorem short_lines_print {entries : List RoutingTableEntry} (h : Printable entries) :
    ∀ line ∈ lines (printEntries entries), line.length < bufsiz := by
  rw [lines_printEntries h]
  intro line hline
  obtain ⟨entry, hentry, rfl⟩ := List.mem_map.mp hline
  obtain ⟨name, hname, hfield⟩ := h entry hentry
  exact length_print_lt hname hfield

/-! ## The header -/

theorem lines_print (entries : List RoutingTableEntry) :
    lines (tableHeader ++ printEntries entries) = tableHeader :: lines (printEntries entries) := by
  have hheader : tableHeader = tableHeader.dropLast ++ [newline] := by decide +kernel
  have hnewline : newline ∉ tableHeader.dropLast := by decide +kernel
  have hline := lines_append hnewline (printEntries entries)
  rw [← hheader] at hline
  rw [← hline, hheader]
  simp

theorem loadLines_header (base : RoutingTable) (fields : FieldBuffers) (rest : List Buffer) :
    loadLines base fields (tableHeader :: rest) =
      .ok ⟨false, base, [cannotConvert (bytesOf "Destination")]⟩ := by
  have htext : cString tableHeader = tableHeader := by decide +kernel
  have hfits : ∀ word ∈ words tableHeader, word.length < fieldSize := by decide +kernel
  have hdest : (fields.after tableHeader).dest = bytesOf "Destination" := by
    have hfirst : (words tableHeader)[0]? = some (bytesOf "Destination") := by decide +kernel
    unfold FieldBuffers.after
    rw [hfirst]
    rfl
  have hrejected : Text.inetAton (bytesOf "Destination") = none := by decide +kernel
  rw [loadLines, htext, scanFields_eq fields hfits]
  dsimp only
  rw [FieldBuffers.entry, hdest, hrejected]

/-! ## Main results -/

theorem load_printEntries {entries : List RoutingTableEntry} (h : Printable entries)
    (base : RoutingTable) (fields : FieldBuffers) :
    base.load fields (some (printEntries entries)) =
      .ok ⟨true, ⟨base.entries ++ entries⟩, []⟩ := by
  rw [load_eq_loadLines (short_lines_print h), lines_printEntries h, loadLines_print h]

/-- The lines of the entries are loaded as these entries, behind those the table has, and
the whole text that the tester gets is refused at its header. -/
theorem load_print {entries : List RoutingTableEntry} (h : Printable entries)
    (base : RoutingTable) (fields : FieldBuffers) :
    base.load fields (some (printEntries entries)) =
        .ok ⟨true, ⟨base.entries ++ entries⟩, []⟩ ∧
      base.load fields (some (RoutingTable.print ⟨entries⟩)) =
        .ok ⟨false, base, [cannotConvert (bytesOf "Destination")]⟩ := by
  refine ⟨load_printEntries h base fields, ?_⟩
  have hheader : tableHeader.length < bufsiz := by decide +kernel
  unfold RoutingTable.print
  rw [load_eq_loadLines, lines_print, loadLines_header]
  rw [lines_print]
  intro line hline
  rcases List.mem_cons.mp hline with rfl | hline
  · exact hheader
  · exact short_lines_print h line hline

theorem projectTable_printable : Printable projectTable.entries := by
  have hname : ∀ name ∈ [bytesOf "sw0-eth1", bytesOf "sw0-eth2", bytesOf "sw0-eth3"],
      IsField name := by
    intro name hname
    simp only [List.mem_cons, List.not_mem_nil, or_false] at hname
    rcases hname with rfl | rfl | rfl
    all_goals exact ⟨⟨by decide +kernel, by decide +kernel⟩, by decide +kernel, by decide +kernel⟩
  intro entry hentry
  simp only [projectTable, List.mem_cons, List.not_mem_nil, or_false] at hentry
  rcases hentry with rfl | rfl | rfl
  · exact ⟨bytesOf "sw0-eth3", by decide +kernel, hname _ (by simp)⟩
  · exact ⟨bytesOf "sw0-eth1", by decide +kernel, hname _ (by simp)⟩
  · exact ⟨bytesOf "sw0-eth2", by decide +kernel, hname _ (by simp)⟩

/-- The table of the project, from an empty one. -/
theorem load_print_projectTable :
    RoutingTable.load ⟨[]⟩ zeroFields (some (printEntries projectTable.entries)) =
        .ok ⟨true, projectTable, []⟩ ∧
      RoutingTable.load ⟨[]⟩ zeroFields (some projectTable.print) =
        .ok ⟨false, ⟨[]⟩, [cannotConvert (bytesOf "Destination")]⟩ :=
  load_print projectTable_printable ⟨[]⟩ zeroFields

/-! ## Loaded tables -/

theorem store_ok {word stored : Buffer} (h : store word = .ok stored) :
    stored = word ∧ word.length < fieldSize := by
  unfold store at h
  split_ifs at h with hlt
  exact ⟨(Except.ok.inj h).symm, hlt⟩

theorem conversion_ok {text : Buffer} {old new : FieldBuffers}
    {next : Buffer → Buffer → Except Fault FieldBuffers}
    (h : (match scanString text with
      | none => .ok old
      | some (word, rest) => do next (← store word) rest) = Except.ok new) :
    (words text = [] ∧ new = old) ∨
      ∃ word rest, words text = word :: words rest ∧ word.length < fieldSize ∧
        next word rest = .ok new := by
  cases hscan : scanString text with
  | none =>
      rw [hscan] at h
      exact Or.inl ⟨words_eq_nil hscan, (Except.ok.inj h).symm⟩
  | some found =>
      obtain ⟨word, rest⟩ := found
      rw [hscan] at h
      dsimp only at h
      cases hstore : store word with
      | error fault =>
          rw [hstore] at h
          cases h
      | ok stored =>
          obtain ⟨rfl, hlt⟩ := store_ok hstore
          rw [hstore] at h
          exact Or.inr ⟨stored, rest, words_eq_cons hscan, hlt, h⟩

theorem scanFields_iface {line : Buffer} {old new : FieldBuffers}
    (h : scanFields line old = .ok new) :
    (new.iface = old.iface ∧ (words line).length < 4) ∨
      (new.iface ∈ words line ∧ new.iface.length < fieldSize) := by
  unfold scanFields at h
  rcases conversion_ok h with ⟨hdest, rfl⟩ | ⟨dest, rest, hdest, -, h⟩
  · exact Or.inl ⟨rfl, by simp [hdest]⟩
  rcases conversion_ok h with ⟨hgw, rfl⟩ | ⟨gw, rest, hgw, -, h⟩
  · exact Or.inl ⟨rfl, by simp [hdest, hgw]⟩
  rcases conversion_ok h with ⟨hmask, rfl⟩ | ⟨mask, rest, hmask, -, h⟩
  · exact Or.inl ⟨rfl, by simp [hdest, hgw, hmask]⟩
  rcases conversion_ok h with ⟨hiface, rfl⟩ | ⟨iface, rest, hiface, hlt, h⟩
  · exact Or.inl ⟨rfl, by simp [hdest, hgw, hmask, hiface]⟩
  · rw [← Except.ok.inj h]
    exact Or.inr ⟨by simp [hdest, hgw, hmask, hiface], hlt⟩

theorem isField_iface {line : Buffer} {old new : FieldBuffers}
    (h : scanFields (cString line) old = .ok new)
    (hold : 4 ≤ (words (cString line)).length ∨ IsField old.iface) : IsField new.iface := by
  rcases scanFields_iface h with ⟨hkept, hfew⟩ | ⟨hword, hlt⟩
  · rw [hkept]
    exact hold.resolve_left (by omega)
  · obtain ⟨hisWord, hmem⟩ := mem_words hword
    refine ⟨hisWord, fun hzero => ?_, hlt⟩
    have hnonzero := List.mem_takeWhile_imp (hmem 0 hzero)
    exact absurd hnonzero (by decide)

theorem entry_ifName {fields : FieldBuffers} {entry : RoutingTableEntry}
    (h : fields.entry = .ok entry) : entry.ifName = asString fields.iface := by
  unfold FieldBuffers.entry at h
  split at h
  · cases h
  · split at h
    · cases h
    · split at h
      · cases h
      · rw [← Except.ok.inj h]

/-- Once a line has had four fields, every name the loop stores is a field. -/
theorem loadLines_printable {base : RoutingTable} {fields : FieldBuffers} {lines : List Buffer}
    {loaded : Loaded} (h : loadLines base fields lines = .ok loaded)
    (hbase : Printable base.entries)
    (hfields : (∀ line ∈ lines.head?, 4 ≤ (words (cString line)).length) ∨ IsField fields.iface) :
    Printable loaded.table.entries := by
  induction lines generalizing base fields with
  | nil =>
      rw [← Except.ok.inj h]
      exact hbase
  | cons line rest ih =>
      rw [loadLines] at h
      cases hscan : scanFields (cString line) fields with
      | error fault => simp [hscan] at h
      | ok scanned =>
          rw [hscan] at h
          have hiface := isField_iface hscan (hfields.imp_left fun hfirst => hfirst line rfl)
          cases hentry : scanned.entry with
          | error field =>
              simp only [hentry] at h
              rw [← Except.ok.inj h]
              exact hbase
          | ok entry =>
              simp only [hentry] at h
              refine ih h (fun other hother => ?_) (Or.inr hiface)
              rcases List.mem_append.mp hother with hother | hother
              · exact hbase other hother
              · rw [List.mem_singleton.mp hother]
                exact ⟨scanned.iface, entry_ifName hentry, hiface⟩

/-- A table that was loaded from a file whose first line has four fields is printed as a
text that loads the same table, whatever else the file holds. -/
theorem load_print_load {file : Buffer} {fields : FieldBuffers} {loaded : Loaded}
    (hload : RoutingTable.load ⟨[]⟩ fields (some file) = .ok loaded)
    (hfirst : ∀ line ∈ (reads bufsiz file.length file).head?, 4 ≤ (words (cString line)).length)
    (stack : FieldBuffers) :
    RoutingTable.load ⟨[]⟩ stack (some (printEntries loaded.table.entries)) =
      .ok ⟨true, loaded.table, []⟩ := by
  have hprintable := loadLines_printable hload (fun _ hnone => by simp at hnone) (Or.inl hfirst)
  rw [load_printEntries hprintable, List.nil_append]

/-- The file of the project and one more line, which has two fields. -/
theorem load_print_shortLine :
    RoutingTable.load ⟨[]⟩ ⟨[], [], [], []⟩ (some (printEntries (projectTable.entries ++
        [⟨inetAton 10 0 1 0, inetAton 10 0 1 100, inetAton 255 255 0 0, "sw0-eth2"⟩]))) =
      .ok ⟨true, ⟨projectTable.entries ++
        [⟨inetAton 10 0 1 0, inetAton 10 0 1 100, inetAton 255 255 0 0, "sw0-eth2"⟩]⟩, []⟩ := by
  have hload : RoutingTable.load ⟨[]⟩ zeroFields
      (some (projectRtable ++ bytesOf "10.0.1.0 10.0.1.100\n")) =
        .ok ⟨true, ⟨projectTable.entries ++
          [⟨inetAton 10 0 1 0, inetAton 10 0 1 100, inetAton 255 255 0 0, "sw0-eth2"⟩]⟩, []⟩ := by
    decide +kernel
  exact load_print_load hload (by decide +kernel) ⟨[], [], [], []⟩

end Cs118.Router
