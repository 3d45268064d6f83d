import CoverageMatrix.Proofs.Toml.Drafts

/-! The document of an orderly table reads back as that table, its plain entries first. -/
namespace CoverageMatrix.Toml

/-- The entries of a table in the order of its document. -/
def arranged (entries : List (String × Data)) : List (String × Data) :=
  entriesToData (placedPlain entries ++ placedSections entries)

theorem Orderly.ofLines? {levels : Nat} {entries : List (String × Data)}
    (h : Orderly levels entries) :
    Toml.ofLines? (plainLines entries ++ sectionsLines [] entries) =
      some (.table (arranged entries)) := by
  obtain ⟨keys, settles⟩ := h.sectionsSettle
  obtain ⟨current, read⟩ := reaches_table keys settles (Leads.root [])
  rw [Toml.ofLines?, show (⟨[], []⟩ : Draft) = ⟨id [], []⟩ from rfl, read]
  rfl

/-- A mark of the byte order is no line of its own. -/
theorem lines?_mark (fuel : Nat) (cs : List Char) : lines? fuel ('\uFEFF' :: cs) = none := by
  cases fuel <;> rfl

theorem parse?_eq {cs : List Char} {lines : List Line} (h : ReadsAs cs lines) :
    parse? (String.ofList cs) = Toml.ofLines? lines := by
  have read := h.lines? (Nat.le_succ cs.length)
  rw [parse?, String.toList_ofList]
  split
  · rw [lines?_mark] at read
    cases read
  · rw [read]
    rfl

/-- Reading what was written gives what was written. -/
theorem parse?_document? {entries : List (String × Data)} (h : Orderly keyLimit entries) :
    ∃ text, document? (.table entries) = some text ∧
      parse? text = some (.table (arranged entries)) := by
  obtain ⟨plain, inner, laid⟩ := h.laidOut [] (Nat.le_of_eq (Nat.zero_add keyLimit))
  refine ⟨String.ofList (plain ++ inner), ?_, ?_⟩
  · rw [document?, laid.writesPlain, laid.writesInner]
    rfl
  · rw [parse?_eq (laid.readsPlain.append laid.readsInner), h.ofLines?]

/-! ## The order of entries -/

theorem entriesToData_append (a b : Entries) :
    entriesToData (a ++ b) = entriesToData a ++ entriesToData b := by
  induction a with
  | nil => rfl
  | cons e a ih => rw [List.cons_append, entriesToData, entriesToData, ih, List.cons_append]

theorem entriesToData_placedPlain (entries : List (String × Data)) :
    entriesToData (placedPlain entries) = entries.filter fun e => !isSection e.2 := by
  induction entries with
  | nil => rfl
  | cons e entries ih =>
    obtain ⟨k, d⟩ := e
    rw [placedPlain, List.filter_cons]
    split
    · next headed => rw [ih, if_neg (by simp [headed])]
    · next plain =>
      rw [if_pos (by simpa using plain), entriesToData, ih]
      rfl

theorem entriesToData_placedSections {entries : List (String × Data)}
    (same : ∀ e ∈ entries, isSection e.2 = true → (placed e.2).toData = e.2) :
    entriesToData (placedSections entries) = entries.filter fun e => isSection e.2 := by
  induction entries with
  | nil => rfl
  | cons e entries ih =>
    obtain ⟨k, d⟩ := e
    replace ih := ih fun e mem => same e (List.mem_cons_of_mem _ mem)
    rw [placedSections, List.filter_cons]
    split
    · next headed => rw [entriesToData, ih, same (k, d) List.mem_cons_self headed]
    · exact ih

/-- A document moves entries, but changes none if those of its sections are in order. -/
theorem arranged_perm {entries : List (String × Data)}
    (same : ∀ e ∈ entries, isSection e.2 = true → (placed e.2).toData = e.2) :
    (arranged entries).Perm entries := by
  rw [arranged, entriesToData_append, entriesToData_placedPlain, entriesToData_placedSections same]
  exact List.perm_append_comm.trans (List.filter_append_perm _ entries)

/-! ## Flat tables -/

theorem Orderly.mono {levels : Nat} {entries : List (String × Data)} (h : Orderly levels entries)
    {more : Nat} (le : levels ≤ more) : Orderly more entries := by
  induction h generalizing more with
  | table keys plain inner ih =>
    obtain ⟨more, rfl⟩ : ∃ n, more = n + 1 := ⟨more - 1, by omega⟩
    exact .table keys plain fun e mem t stands => ih e mem t stands (Nat.le_of_succ_le_succ le)

theorem Storable.isSection {depth : Nat} {d : Data} (h : Storable depth d) :
    Toml.isSection d = false := by
  cases h with
  | @list depth items each =>
    cases items with
    | nil => rfl
    | cons d items =>
      have apart : isTable d = false := by
        cases each d List.mem_cons_self <;> rfl
      simp [Toml.isSection, apart]
  | _ => rfl

theorem Storable.not_standsIn {depth : Nat} {d : Data} (h : Storable depth d)
    {t : List (String × Data)} : ¬StandsIn t d := by
  intro stands
  cases stands with
  | table => cases h
  | item headed _ =>
    rw [h.isSection] at headed
    cases headed

/-- Tables without others in them. -/
structure Flat (entries : List (String × Data)) : Prop where
  keys : (entries.map (·.1)).Nodup
  storable : ∀ e ∈ entries, Storable depthLimit e.2

theorem Flat.orderly {entries : List (String × Data)} (h : Flat entries) (levels : Nat) :
    Orderly (levels + 1) entries :=
  .table h.keys (fun e mem _ => h.storable e mem) fun e mem _ stands =>
    absurd stands (h.storable e mem).not_standsIn

/-- A flat table stays as it is. -/
theorem Flat.arranged {entries : List (String × Data)} (h : Flat entries) :
    Toml.arranged entries = entries := by
  have plain : ∀ e ∈ entries, Toml.isSection e.2 = false :=
    fun e mem => (h.storable e mem).isSection
  rw [Toml.arranged, entriesToData_append, entriesToData_placedPlain, entriesToData_placedSections
    fun e mem headed => absurd headed (by simp [plain e mem]), List.filter_eq_self.2
    fun e mem => by simp [plain e mem], List.filter_eq_nil_iff.2 fun e mem => by simp [plain e mem],
    List.append_nil]

theorem toData_placed_table (entries : List (String × Data)) :
    (placed (.table entries)).toData = .table (arranged entries) := by
  rw [placed, Item.toData, arranged]

theorem toData_placed_list {items : List Data}
    (each : ∀ d ∈ items, ∃ t, d = .table t ∧ arranged t = t) :
    (placed (.list items)).toData = .list items := by
  rw [placed, Item.toData]
  refine congrArg _ ?_
  induction items with
  | nil => rfl
  | cons d items ih =>
    obtain ⟨t, rfl, same⟩ := each d List.mem_cons_self
    rw [placedTables, tablesToData, ih fun d mem => each d (List.mem_cons_of_mem _ mem)]
    rw [arranged] at same
    rw [same]

/-! ## Numbers -/

/-- What is written holds no number that is too large for the format. -/
theorem le_of_writePlain? {entries : List (String × Data)} {text : List Char}
    (written : writePlain? entries = some text) {k : String} {n : Int}
    (mem : (k, .int n) ∈ entries) : n ≤ Data.maxInt64 := by
  induction entries generalizing text with
  | nil => cases mem
  | cons e entries ih =>
    obtain ⟨k', d⟩ := e
    rw [writePlain?] at written
    split at written
    · next headed =>
      rcases List.mem_cons.1 mem with same | mem
      · cases same
        cases headed
      · exact ih written mem
    · obtain ⟨value, writtenValue, more⟩ := Option.bind_eq_some_iff.1 written
      obtain ⟨rest, writtenRest, -⟩ := Option.bind_eq_some_iff.1 more
      rcases List.mem_cons.1 mem with same | mem
      · cases same
        rw [writeValue?] at writtenValue
        split at writtenValue
        · next small => exact small
        · cases writtenValue
      · exact ih writtenRest mem

theorem writePlain?_of_writeSections? {path : List String} {entries t : List (String × Data)}
    {text : List Char} (written : writeSections? path entries = some text) {k : String}
    (mem : (k, .table t) ∈ entries) : ∃ plain, writePlain? t = some plain := by
  induction entries generalizing text with
  | nil => cases mem
  | cons e entries ih =>
    obtain ⟨k', d⟩ := e
    rw [writeSections?] at written
    obtain ⟨first, writtenFirst, more⟩ := Option.bind_eq_some_iff.1 written
    obtain ⟨rest, writtenRest, -⟩ := Option.bind_eq_some_iff.1 more
    rcases List.mem_cons.1 mem with same | mem
    · cases same
      rw [writeSection?] at writtenFirst
      obtain ⟨plain, writtenPlain, -⟩ := Option.bind_eq_some_iff.1 writtenFirst
      exact ⟨plain, writtenPlain⟩
    · exact ih writtenRest mem

/-- A number in a section of a document is at most the largest of the format. -/
theorem le_of_document? {entries t : List (String × Data)} {text : String}
    (written : document? (.table entries) = some text) (k k' : String) {n : Int}
    (mem : (k, .table t) ∈ entries) (number : (k', .int n) ∈ t) : n ≤ Data.maxInt64 := by
  rw [document?] at written
  obtain ⟨_, -, more⟩ := Option.bind_eq_some_iff.1 written
  obtain ⟨inner, writtenInner, -⟩ := Option.bind_eq_some_iff.1 more
  obtain ⟨plain, writtenPlain⟩ := writePlain?_of_writeSections? writtenInner mem
  exact le_of_writePlain? writtenPlain number

end CoverageMatrix.Toml
