import OhanaAgent.Host.AdguardReservations
import OhanaAgent.Store.Transaction

/-!
# Reserved names converge and leave foreign rewrites alone

A run may be interrupted between any two of its effects and a user may change the
server at any moment.  The journal only ever holds entries that were desired in a
run, so a run deletes nothing else; a run that nobody disturbs and that returns
leaves the desired entries on the server, beside those it does not own.
-/

namespace OhanaAgent.Host

open Encoding.Json (Fields Items Number Text Value)
open Transition (Move Program)
open Transition.Program (Course Ensures ask ensures_ask ensures_bind ensures_forM ensures_pure)

/-! ## The journal -/

/-- The journal file holds a set of entries. -/
def Stored (file : Option Value) (entries : Finset Rewrite) : Prop :=
  file = some (stateDocument entries) ∨ file = none ∧ entries = ∅

theorem managedEntry_eq_ok {entry read : Rewrite}
    (found : managedEntry (some (.string entry.1)) (some (.string entry.2)) = .ok read) :
    read = entry := by
  rw [managedEntry] at found
  split at found
  · cases parsed : Address.parse entry.2 with
    | none =>
        rw [managedAnswer, parsed] at found
        contradiction
    | some address =>
        rw [managedAnswer, parsed, Option.map_some, Address.text_of_parse parsed] at found
        cases found
        rfl
  · contradiction

theorem readEntries_eq_ok {entries : List Rewrite} {read : Finset Rewrite}
    (found : readEntries (Items.ofList (entries.map entryDocument)) = .ok read) :
    read = entries.toFinset := by
  induction entries generalizing read with
  | nil =>
      cases found
      rfl
  | cons entry entries ih =>
      obtain ⟨first, firstRead, rest⟩ := Store.bind_eq_ok.mp found
      obtain ⟨others, othersRead, made⟩ := Store.bind_eq_ok.mp rest
      cases made
      have same : first = entry := managedEntry_eq_ok firstRead
      rw [same, ih othersRead, List.toFinset_cons]

/-- What is read of a saved journal are its entries. -/
theorem readState_stateDocument (entries : Finset Rewrite) :
    readState (some (stateDocument entries)) =
      readEntries (Items.ofList ((sortedRewrites entries).map entryDocument)) := by
  have version : isOne (some (.number (.ofNat 1))) = true :=
    decide_eq_true (Number.toInt?_ofInt (Int.ofNat 1))
  have schema : (Fields.ofList [(schemaKey, .number (.ofNat 1)),
      (rewritesKey, .array (Items.ofList ((sortedRewrites entries).map entryDocument)))]).lookup
        schemaKey = some (.number (.ofNat 1)) := rfl
  have list : (Fields.ofList [(schemaKey, .number (.ofNat 1)),
      (rewritesKey, .array (Items.ofList ((sortedRewrites entries).map entryDocument)))]).lookup
        rewritesKey =
      some (.array (Items.ofList ((sortedRewrites entries).map entryDocument))) := rfl
  simp only [stateDocument, readState, schema, version, list, if_true]

/-- The journal is read back as it was written, if it is read at all. -/
theorem Stored.readState_eq_ok {file : Option Value} {entries read : Finset Rewrite}
    (stored : Stored file entries) (found : readState file = .ok read) : read = entries := by
  rcases stored with rfl | ⟨rfl, rfl⟩
  · rw [readState_stateDocument] at found
    rw [readEntries_eq_ok found, toFinset_sortedRewrites]
  · cases found
    rfl

/-! ## Reserved names -/

/-- The characters of reserved names. -/
def IsReservedChar (c : Char) : Prop :=
  isLowerAlnum c = true ∨ c = '-' ∨ c = '.'

theorem reservedRewrite_eq_ok {row : Reservation} {entry : Rewrite}
    (found : reservedRewrite row = .ok entry) :
    ('.' :: localDomain).isSuffixOf entry.1 = true ∧
      (∀ label ∈ entry.1.splitOn '.', isReservedLabel label = true) ∧
      entry.2 = row.address.text := by
  obtain ⟨name, published, rest⟩ := Store.bind_eq_ok.mp found
  have suffix : ('.' :: localDomain).isSuffixOf name = true := by
    unfold publishedName at published
    split at published
    · rename_i ends
      cases published
      exact ends
    · split at published
      · cases published
        exact List.isSuffixOf_iff_suffix.mpr (List.suffix_append _ _)
      · contradiction
  split at rest
  · contradiction
  · rename_i valid
    cases rest
    simp only [Bool.or_eq_true, decide_eq_true_eq, Bool.not_eq_true', not_or,
      Bool.not_eq_false, List.all_eq_true] at valid
    exact ⟨suffix, valid.2, rfl⟩

theorem mapM_reservedRewrite {rows : List Reservation} {names : List Rewrite}
    (found : rows.mapM reservedRewrite = .ok names) {entry : Rewrite} (member : entry ∈ names) :
    ∃ row ∈ rows, reservedRewrite row = .ok entry := by
  induction rows generalizing names with
  | nil =>
      cases found
      simp at member
  | cons row rows ih =>
      rw [List.mapM_cons] at found
      obtain ⟨first, firstFound, rest⟩ := Store.bind_eq_ok.mp found
      obtain ⟨others, othersFound, made⟩ := Store.bind_eq_ok.mp rest
      cases made
      rcases List.mem_cons.mp member with rfl | member
      · exact ⟨row, List.mem_cons_self, firstFound⟩
      · obtain ⟨other, among, equal⟩ := ih othersFound member
        exact ⟨other, List.mem_cons_of_mem row among, equal⟩

/-- Every published entry comes from a reservation. -/
theorem readReservedNames_eq_ok {repository : Repository} {files : Files}
    {desired : Finset Rewrite} (found : readReservedNames repository files = .ok desired)
    {entry : Rewrite} (member : entry ∈ desired) : ∃ row, reservedRewrite row = .ok entry := by
  unfold readReservedNames at found
  split at found
  · contradiction
  · split at found
    · contradiction
    · split at found
      · contradiction
      · obtain ⟨names, read, rest⟩ := Store.bind_eq_ok.mp found
        split at rest
        · contradiction
        · cases rest
          obtain ⟨row, _, equal⟩ := mapM_reservedRewrite read (List.mem_toFinset.mp member)
          exact ⟨row, equal⟩

theorem isReservedChar_of_label {label : Text} (valid : isReservedLabel label = true) {c : Char}
    (member : c ∈ label) : IsReservedChar c := by
  simp only [isReservedLabel, Bool.and_eq_true, List.all_eq_true, Bool.or_eq_true,
    beq_iff_eq] at valid
  rcases valid.1.1.2 c member with alnum | rfl
  · exact Or.inl alnum
  · exact Or.inr (Or.inl rfl)

theorem readEntries_reserved {entries : List Rewrite}
    (reserved : ∀ entry ∈ entries, ∃ row, reservedRewrite row = .ok entry) :
    readEntries (Items.ofList (entries.map entryDocument)) = .ok entries.toFinset := by
  induction entries with
  | nil => rfl
  | cons entry entries ih =>
      obtain ⟨row, equal⟩ := reserved entry List.mem_cons_self
      obtain ⟨suffix, _, answer⟩ := reservedRewrite_eq_ok equal
      have managed : managedEntry (some (.string entry.1)) (some (.string entry.2)) =
          .ok entry := by
        rw [managedEntry, if_pos suffix, answer, managedAnswer, Address.parse_text,
          Option.map_some, ← answer]
      have first : readEntries (Items.ofList ((entry :: entries).map entryDocument)) = (do
          let first ← managedEntry (some (.string entry.1)) (some (.string entry.2))
          let others ← readEntries (Items.ofList (entries.map entryDocument))
          pure (insert first others)) := rfl
      rw [first, managed, ih fun other member => reserved other (List.mem_cons_of_mem entry member),
        List.toFinset_cons]
      rfl

/-- A journal of published entries is read back. -/
theorem readState_reserved {repository : Repository} {files : Files} {desired : Finset Rewrite}
    (found : readReservedNames repository files = .ok desired) :
    readState (some (stateDocument desired)) = .ok desired := by
  rw [readState_stateDocument, readEntries_reserved, toFinset_sortedRewrites]
  exact fun entry member => readReservedNames_eq_ok found (mem_sortedRewrites.mp member)

/-- Published entries are in lower case and without trailing dot, for a
`str.lower` that leaves reserved characters as they are. -/
theorem normal_of_readReservedNames {lower : Text → Text}
    (fixes : ∀ text, (∀ c ∈ text, IsReservedChar c) → lower text = text)
    {repository : Repository} {files : Files} {desired : Finset Rewrite}
    (found : readReservedNames repository files = .ok desired) :
    ∀ entry ∈ desired, normalized lower entry = entry := by
  intro entry member
  obtain ⟨row, equal⟩ := readReservedNames_eq_ok found member
  obtain ⟨suffix, labels, _⟩ := reservedRewrite_eq_ok equal
  have chars : ∀ c ∈ entry.1, IsReservedChar c := by
    intro c inside
    rcases Encoding.mem_splitOn '.' inside with rfl | ⟨label, among, inside⟩
    · exact Or.inr (Or.inr rfl)
    · exact isReservedChar_of_label (labels label among) inside
  obtain ⟨front, whole⟩ := List.isSuffixOf_iff_suffix.mp suffix
  have domain : '.' :: localDomain = ".ohana.la".toList ++ ['n'] := by decide +kernel
  have last : entry.1 = (front ++ ".ohana.la".toList) ++ ['n'] := by
    rw [← whole, domain, List.append_assoc]
  have letter : ¬ ('n' == '.') = true := by decide
  have kept : entry.1.rdropWhile (· == '.') = entry.1 := by
    rw [last]
    exact List.rdropWhile_concat_neg _ _ _ letter
  rw [normalized, fixes entry.1 chars, kept]

/-! ## What a run may do -/

/-- A user changes the server and not the journal. -/
def KeepsFile (site later : Site) : Prop :=
  later.file = site.file

/-- The effects of a run that wants `desired` and owns at most `owned`. -/
def Allowed (owned desired : Finset Rewrite) : Effect → Prop
  | .loadState => True
  | .entries => True
  | .writeState entries => entries ⊆ owned ∪ desired
  | .change .add entry => entry ∈ desired
  | .change .delete entry => entry ∈ owned ∧ entry ∉ desired

section Safety

variable {lower : Text → Text} {owned desired previous current : Finset Rewrite} {site : Site}

theorem ensures_saveUnless (entries : Finset Rewrite) (within : entries ⊆ owned ∪ desired) :
    Ensures (perform lower) KeepsFile (Allowed owned desired) (fun _ _ => True)
      (saveUnless current entries) site := by
  unfold saveUnless
  split
  · exact ensures_ask within fun _ _ _ _ => trivial
  · exact ensures_pure fun _ _ => trivial

theorem ensures_changes {action : Action} {entries : List Rewrite}
    (allowed : ∀ entry ∈ entries, Allowed owned desired (.change action entry)) :
    Ensures (perform lower) KeepsFile (Allowed owned desired) (fun _ _ => True)
      (entries.forM (change action)) site := by
  have refl : ∀ site, KeepsFile site site := fun _ => rfl
  refine (ensures_forM (fun items _ => ∀ entry ∈ items, entry ∈ entries) refl
    (fun _ _ _ holds _ => holds) ?_ entries fun _ member => member).mono fun _ _ _ => trivial
  intro entry items site among
  apply ensures_ask (allowed entry (among entry List.mem_cons_self))
  exact fun _ _ _ _ => ⟨rfl, fun other member => among other (List.mem_cons_of_mem entry member)⟩

theorem ensures_applyChanges (within : previous ⊆ owned) :
    Ensures (perform lower) KeepsFile (Allowed owned desired) (fun _ _ => True)
      (applyChanges desired previous current) site := by
  have refl : ∀ site, KeepsFile site site := fun _ => rfl
  have pending : previous ∪ desired ⊆ owned ∪ desired := Finset.union_subset_union_left within
  have adds : ∀ entry ∈ sortedRewrites (desired \ current),
      Allowed owned desired (.change .add entry) := by
    intro entry member
    exact (Finset.mem_sdiff.mp (mem_sortedRewrites.mp member)).1
  have deletes : ∀ entry ∈ sortedRewrites ((previous \ desired) ∩ current),
      Allowed owned desired (.change .delete entry) := by
    intro entry member
    obtain ⟨old, unwanted⟩ := Finset.mem_sdiff.mp
      (Finset.mem_inter.mp (mem_sortedRewrites.mp member)).1
    exact ⟨within old, unwanted⟩
  apply ensures_bind refl _ (fun _ _ _ => trivial) (ensures_saveUnless _ pending)
  intro _ site _
  apply ensures_bind refl _ (fun _ _ _ => trivial) (ensures_changes adds)
  intro _ site _
  apply ensures_bind refl _ (fun _ _ _ => trivial) (ensures_changes deletes)
  intro _ site _
  apply ensures_bind refl _ (fun _ _ _ => trivial)
    (ensures_ask trivial fun _ _ _ _ => trivial : Ensures _ _ _ (fun _ _ => True) serverEntries site)
  intro verified site _
  split
  · exact fun _ _ => trivial
  · apply ensures_bind refl _ (fun _ _ _ => trivial)
      (ensures_saveUnless _ Finset.subset_union_right)
    exact fun _ _ _ => ensures_pure fun _ _ => trivial

theorem keepsFile_refl (site : Site) : KeepsFile site site := rfl

theorem ensures_serverEntries : Ensures (perform lower) KeepsFile (Allowed owned desired)
    (fun _ _ => True) serverEntries site :=
  ensures_ask trivial fun _ _ _ _ => trivial

/-- A run takes allowed effects only, whatever a user does to the server. -/
theorem ensures_reconcile {entries : Finset Rewrite} (stored : Stored site.file entries)
    (within : entries ⊆ owned) (dryRun : Bool) :
    Ensures (perform lower) KeepsFile (Allowed owned desired) (fun _ _ => True)
      (reconcile desired dryRun) site := by
  have load : Ensures (perform lower) KeepsFile (Allowed owned desired)
      (fun outcome _ => ∀ document, outcome = .ok document → Stored document entries)
      (ask Effect.loadState : Sync (Option Value)) site := by
    apply ensures_ask trivial
    rintro later kept _ _ document equal
    cases equal
    show Stored later.file entries
    rwa [kept]
  apply ensures_bind keepsFile_refl _ (fun _ _ _ => trivial) load
  intro document site holds
  have journal := holds document rfl
  cases found : readState document with
  | error failure => exact fun _ _ => trivial
  | ok previous =>
      have same := journal.readState_eq_ok found
      apply ensures_bind keepsFile_refl _ (fun _ _ _ => trivial) ensures_serverEntries
      intro current site _
      split
      · exact fun _ _ => trivial
      · split
        · exact ensures_pure fun _ _ => trivial
        · exact ensures_applyChanges (same ▸ within)

end Safety

/-! ## What an undisturbed run leaves -/

/-- An entry as `AdGuardAPI.entries` gives it. -/
def Normal (lower : Text → Text) (entry : Rewrite) : Prop :=
  normalized lower entry = entry

section Undisturbed

variable {lower : Text → Text} {desired previous server entries : Finset Rewrite} {site : Site}

/-- A server in lower case without trailing dots is read as it is. -/
theorem image_normalized (normal : ∀ entry ∈ entries, Normal lower entry) :
    entries.image (normalized lower) = entries := by
  ext entry
  rw [Finset.mem_image]
  constructor
  · rintro ⟨given, member, rfl⟩
    rwa [show normalized lower given = given from normal given member]
  · intro member
    exact ⟨entry, member, normal entry member⟩

/-- The journal holds the entries and the server is the given one. -/
def Stands (entries server : Finset Rewrite) (site : Site) : Prop :=
  Stored site.file entries ∧ site.server = server

/-- The postcondition of a part of a run that is only read when it does not
raise. -/
def Returning {α : Type} (holds : Site → Prop) : Except SyncFailure α → Site → Prop
  | .ok _, site => holds site
  | .error _, _ => True

theorem undisturbed_ask (effect : Effect) {post : Except SyncFailure effect.Answer → Site → Prop}
    (holds : post (.ok (perform lower effect site).1) (perform lower effect site).2) :
    Ensures (perform lower) Eq (fun _ => True) post (ask effect) site := by
  apply ensures_ask
  · trivial
  · rintro _ rfl _ rfl
    exact holds

theorem undisturbed_saveUnless {current : Finset Rewrite} (stands : Stands current server site) :
    Ensures (perform lower) Eq (fun _ => True) (Returning (Stands entries server))
      (saveUnless current entries) site := by
  unfold saveUnless
  split
  · exact undisturbed_ask (.writeState entries) ⟨Or.inl rfl, stands.2⟩
  · rename_i same
    apply ensures_pure
    rintro _ rfl
    exact (not_not.mp same) ▸ stands

/-- Adding the missing entries one after another. -/
theorem undisturbed_adds (items : List Rewrite) {goal : Finset Rewrite}
    (stored : Stored site.file entries) (reaches : site.server ∪ items.toFinset = goal) :
    Ensures (perform lower) Eq (fun _ => True) (Returning (Stands entries goal))
      (items.forM (change .add)) site := by
  refine (ensures_forM (fun items site => Stored site.file entries ∧
    site.server ∪ items.toFinset = goal) (fun _ => rfl) (fun _ _ _ holds same => same ▸ holds)
    ?_ items ⟨stored, reaches⟩).mono ?_
  · rintro entry items site ⟨stored, reaches⟩
    refine undisturbed_ask (.change .add entry) ⟨rfl, stored, ?_⟩
    rw [← reaches, List.toFinset_cons, Finset.union_insert, ← Finset.insert_union]
    rfl
  · rintro (_ | _) site ⟨equal, stored, reaches⟩
    · trivial
    · exact ⟨stored, by simpa using reaches⟩

/-- Deleting the entries that are no longer desired one after another. -/
theorem undisturbed_deletes (items : List Rewrite) {goal : Finset Rewrite}
    (stored : Stored site.file entries) (reaches : site.server \ items.toFinset = goal) :
    Ensures (perform lower) Eq (fun _ => True) (Returning (Stands entries goal))
      (items.forM (change .delete)) site := by
  refine (ensures_forM (fun items site => Stored site.file entries ∧
    site.server \ items.toFinset = goal) (fun _ => rfl) (fun _ _ _ holds same => same ▸ holds)
    ?_ items ⟨stored, reaches⟩).mono ?_
  · rintro entry items site ⟨stored, reaches⟩
    refine undisturbed_ask (.change .delete entry) ⟨rfl, stored, ?_⟩
    rw [← reaches, List.toFinset_cons, Finset.sdiff_insert, ← Finset.erase_sdiff_comm]
    rfl
  · rintro (_ | _) site ⟨equal, stored, reaches⟩
    · trivial
    · exact ⟨stored, by simpa using reaches⟩

/-- The entries that a run leaves on the server. -/
def reconciled (server journaled desired : Finset Rewrite) : Finset Rewrite :=
  (server \ (journaled \ desired)) ∪ desired

theorem reconciled_eq (server journaled desired : Finset Rewrite) :
    (server ∪ desired) \ ((journaled \ desired) ∩ server) =
      reconciled server journaled desired := by
  ext entry
  simp only [reconciled, Finset.mem_sdiff, Finset.mem_union, Finset.mem_inter]
  tauto

theorem undisturbed_applyChanges (stands : Stands previous server site) :
    Ensures (perform lower) Eq (fun _ => True)
      (Returning (Stands desired (reconciled server previous desired)))
      (applyChanges desired previous server) site := by
  have refl : ∀ site : Site, site = site := fun _ => rfl
  apply ensures_bind refl _ (fun _ _ _ => trivial) (undisturbed_saveUnless stands)
  rintro _ site ⟨stored, same⟩
  have added : site.server ∪ (sortedRewrites (desired \ server)).toFinset = server ∪ desired := by
    rw [same, toFinset_sortedRewrites, Finset.union_sdiff_self_eq_union]
  apply ensures_bind refl _ (fun _ _ _ => trivial) (undisturbed_adds _ stored added)
  rintro _ site ⟨stored, same⟩
  have deleted : site.server \ (sortedRewrites ((previous \ desired) ∩ server)).toFinset =
      reconciled server previous desired := by
    rw [same, toFinset_sortedRewrites, reconciled_eq]
  apply ensures_bind refl _ (fun _ _ _ => trivial) (undisturbed_deletes _ stored deleted)
  rintro _ site stands
  have verify : Ensures (perform lower) Eq (fun _ => True)
      (Returning (Stands (previous ∪ desired) (reconciled server previous desired)))
      serverEntries site :=
    undisturbed_ask .entries stands
  apply ensures_bind refl _ (fun _ _ _ => trivial) verify
  intro verified site stands
  split
  · exact fun _ _ => trivial
  · apply ensures_bind refl _ (fun _ _ _ => trivial) (undisturbed_saveUnless stands)
    rintro _ site stands
    apply ensures_pure
    rintro _ rfl
    exact stands

/-- An undisturbed run that is not dry and returns has reached its goal. -/
theorem undisturbed_reconcile {journaled : Finset Rewrite} (stored : Stored site.file journaled)
    (normal : ∀ entry ∈ site.server, Normal lower entry) :
    Ensures (perform lower) Eq (fun _ => True)
      (Returning fun later => readState site.file = .ok journaled ∧
        Stands desired (reconciled site.server journaled desired) later)
      (reconcile desired false) site := by
  have refl : ∀ site : Site, site = site := fun _ => rfl
  have load : Ensures (perform lower) Eq (fun _ => True)
      (fun outcome later => outcome = .ok site.file ∧ later = site)
      (ask Effect.loadState : Sync (Option Value)) site :=
    undisturbed_ask .loadState ⟨rfl, rfl⟩
  apply ensures_bind refl _ (fun _ _ _ => trivial) load
  rintro document later ⟨equal, rfl⟩
  cases equal
  cases found : readState later.file with
  | error failure => exact fun _ _ => trivial
  | ok previous =>
      obtain rfl := stored.readState_eq_ok found
      have list : Ensures (perform lower) Eq (fun _ => True)
          (fun outcome site => outcome = .ok later.server ∧ site = later) serverEntries later :=
        undisturbed_ask .entries ⟨congrArg Except.ok (image_normalized normal), rfl⟩
      apply ensures_bind refl _ (fun _ _ _ => trivial) list
      rintro current _ ⟨equal, rfl⟩
      cases equal
      split
      · exact fun _ _ => trivial
      · refine (undisturbed_applyChanges ⟨stored, rfl⟩).mono ?_
        rintro (_ | _) later stands
        · trivial
        · exact ⟨rfl, stands⟩

end Undisturbed

/-! ## Sequences of runs -/

/-- The entries of a server: in lower case and without trailing dot. -/
structure Server (lower : Text → Text) where
  entries : Finset Rewrite
  normal : ∀ entry ∈ entries, Normal lower entry

/-- One run: what it wants, whether it only plans, and what happens until the
next run begins.  A user puts the server into any state; a run whose moves stop
before its end was interrupted there. -/
structure Round (lower : Text → Text) where
  desired : Finset Rewrite
  normal : ∀ entry ∈ desired, Normal lower entry
  dryRun : Bool
  moves : List (Move (Server lower))

variable {lower : Text → Text}

/-- A user leaves the server with the given entries. -/
def disturb (server : Server lower) (site : Site) : Site :=
  { site with server := server.entries }

/-- Where a run stands after its moves. -/
def Round.course (round : Round lower) (site : Site) :
    Course Effect Effect.Answer SyncFailure (Nat × Nat) Site :=
  (reconcile round.desired round.dryRun).play (perform lower) disturb site round.moves

/-- The site after a sequence of runs. -/
def siteAfter (start : Site) (rounds : List (Round lower)) : Site :=
  rounds.foldl (fun site round => (round.course site).state) start

/-- The site before the first run. -/
def fresh (server : Server lower) : Site :=
  ⟨none, server.entries⟩

/-- The entries that were desired in some run. -/
def everDesired (rounds : List (Round lower)) : Finset Rewrite :=
  rounds.foldr (fun round entries => round.desired ∪ entries) ∅

theorem mem_everDesired {rounds : List (Round lower)} {entry : Rewrite} :
    entry ∈ everDesired rounds ↔ ∃ round ∈ rounds, entry ∈ round.desired := by
  induction rounds with
  | nil => simp [everDesired]
  | cons round rounds ih =>
      have unfolded : everDesired (round :: rounds) = round.desired ∪ everDesired rounds := rfl
      simp [unfolded, ih]

/-- The journal holds entries that were desired, and the server is normal. -/
def Owned (lower : Text → Text) (owned : Finset Rewrite) (site : Site) : Prop :=
  (∃ entries, Stored site.file entries ∧ entries ⊆ owned) ∧
    ∀ entry ∈ site.server, Normal lower entry

/-- One run takes allowed effects and keeps the invariant. -/
theorem Round.owned (round : Round lower) {owned : Finset Rewrite} {site : Site}
    (holds : Owned lower owned site) :
    (∀ effect ∈ (round.course site).performed, Allowed owned round.desired effect) ∧
      Owned lower (owned ∪ round.desired) (round.course site).state := by
  obtain ⟨⟨entries, stored, within⟩, normal⟩ := holds
  have trans {first second third : Site} (left : KeepsFile first second)
      (right : KeepsFile second third) : KeepsFile first third := right.trans left
  have effects : ∀ effect site, Allowed owned round.desired effect →
      Owned lower (owned ∪ round.desired) site →
        Owned lower (owned ∪ round.desired) (perform lower effect site).2 := by
    rintro effect site allowed ⟨journal, normal⟩
    cases effect with
    | loadState => exact ⟨journal, normal⟩
    | entries => exact ⟨journal, normal⟩
    | writeState saved => exact ⟨⟨saved, Or.inl rfl, allowed⟩, normal⟩
    | change action entry =>
        cases action with
        | add =>
            refine ⟨journal, ?_⟩
            intro other member
            rcases Finset.mem_insert.mp member with rfl | member
            · exact round.normal other allowed
            · exact normal other member
        | delete =>
            exact ⟨journal, fun other member => normal other (Finset.mem_of_mem_erase member)⟩
  have keeps : ∀ (server : Server lower) site, .disturb server ∈ round.moves →
      KeepsFile site (disturb server site) := fun _ _ _ => rfl
  have changes : ∀ (server : Server lower) site, Owned lower (owned ∪ round.desired) site →
      Owned lower (owned ∪ round.desired) (disturb server site) :=
    fun server site kept => ⟨kept.1, server.normal⟩
  have start : Owned lower (owned ∪ round.desired) site :=
    ⟨⟨entries, stored, within.trans Finset.subset_union_left⟩, normal⟩
  exact ((ensures_reconcile stored within round.dryRun).play keepsFile_refl trans keeps effects
    changes start).2

/-- Every sequence of runs keeps the invariant. -/
theorem owned_siteAfter (rounds : List (Round lower)) {owned : Finset Rewrite} {site : Site}
    (holds : Owned lower owned site) :
    Owned lower (owned ∪ everDesired rounds) (siteAfter site rounds) := by
  induction rounds generalizing owned site with
  | nil =>
      show Owned lower (owned ∪ ∅) site
      rwa [Finset.union_empty]
  | cons round rounds ih =>
      have rest := ih (round.owned holds).2
      rwa [Finset.union_assoc] at rest

theorem owned_fresh (server : Server lower) : Owned lower ∅ (fresh server) :=
  ⟨⟨∅, Or.inr ⟨rfl, rfl⟩, Finset.Subset.refl ∅⟩, server.normal⟩

/-- No user touches the server during a run. -/
def Round.Undisturbed (round : Round lower) : Prop :=
  ∀ server, .disturb server ∉ round.moves

/-- An undisturbed run that is not dry and returns has reached its goal. -/
theorem Round.reconciled (round : Round lower) {journaled : Finset Rewrite} {site : Site}
    {counts : Nat × Nat} (stored : Stored site.file journaled)
    (normal : ∀ entry ∈ site.server, Normal lower entry) (wet : round.dryRun = false)
    (undisturbed : round.Undisturbed) (returned : (round.course site).program = .done counts) :
    readState site.file = .ok journaled ∧
      (round.course site).state.server = Host.reconciled site.server journaled round.desired ∧
      Stored (round.course site).state.file round.desired := by
  have keeps : ∀ (server : Server lower) site, .disturb server ∈ round.moves →
      site = disturb server site := fun server _ member => absurd member (undisturbed server)
  have spec : Ensures (perform lower) Eq (fun _ => True)
      (Returning fun later => readState site.file = .ok journaled ∧
        Stands round.desired (Host.reconciled site.server journaled round.desired) later)
      (reconcile round.desired round.dryRun) site := by
    rw [wet]
    exact undisturbed_reconcile stored normal
  have effects : ∀ (effect : Effect) (site : Site), True → True → True := fun _ _ _ => id
  have changes : ∀ (server : Server lower) (site : Site), True → True := fun _ _ => id
  have left : Ensures (perform lower) Eq (fun _ => True)
      (Returning fun later => readState site.file = .ok journaled ∧
        Stands round.desired (Host.reconciled site.server journaled round.desired) later)
      (round.course site).program (round.course site).state :=
    (spec.play (fun _ => rfl) Eq.trans keeps effects changes trivial).1
  rw [returned] at left
  obtain ⟨read, stored, same⟩ := left _ rfl
  exact ⟨read, same, stored⟩

/-- Over every sequence of runs, each interrupted anywhere and disturbed by a
user: a run deletes only entries that an earlier run desired and it does not, it
adds only entries it desires, and an undisturbed run that returns leaves the
server without the journaled entries no longer desired and with the desired
ones, which are then the journal. -/
theorem reconcile_converges (server : Server lower) (earlier : List (Round lower))
    (round : Round lower) :
    (∀ entry, .change .delete entry ∈ (round.course (siteAfter (fresh server) earlier)).performed →
      (∃ past ∈ earlier, entry ∈ past.desired) ∧ entry ∉ round.desired) ∧
    (∀ entry, .change .add entry ∈ (round.course (siteAfter (fresh server) earlier)).performed →
      entry ∈ round.desired) ∧
    ∀ counts, (round.course (siteAfter (fresh server) earlier)).program = .done counts →
      round.dryRun = false → round.Undisturbed →
      ∃ journaled, readState (siteAfter (fresh server) earlier).file = .ok journaled ∧
        (round.course (siteAfter (fresh server) earlier)).state.server =
          ((siteAfter (fresh server) earlier).server \ (journaled \ round.desired)) ∪
            round.desired ∧
        Stored (round.course (siteAfter (fresh server) earlier)).state.file round.desired := by
  have owned := owned_siteAfter earlier (owned_fresh server)
  rw [Finset.empty_union] at owned
  have allowed := (round.owned owned).1
  refine ⟨?_, ?_, ?_⟩
  · intro entry deleted
    obtain ⟨old, unwanted⟩ := allowed _ deleted
    exact ⟨mem_everDesired.mp old, unwanted⟩
  · exact fun entry added => allowed _ added
  · intro counts returned wet undisturbed
    obtain ⟨⟨journaled, stored, _⟩, normal⟩ := owned
    exact ⟨journaled, round.reconciled stored normal wet undisturbed returned⟩

/-! ## A name that moves -/

/-- An address under its first name. -/
def nasRewrite : Rewrite := ("nas.ohana.lan".toList, "192.168.1.20".toList)

/-- The same address under another name. -/
def boxRewrite : Rewrite := ("box.ohana.lan".toList, "192.168.1.20".toList)

theorem nasRewrite_normal : Normal Host.lower nasRewrite := by
  unfold Normal
  decide +kernel

theorem boxRewrite_normal : Normal Host.lower boxRewrite := by
  unfold Normal
  decide +kernel

theorem normal_singleton {entry : Rewrite} (normal : Normal lower entry) :
    ∀ other ∈ ({entry} : Finset Rewrite), Normal lower other := by
  intro other member
  rwa [Finset.mem_singleton.mp member]

/-- A run that publishes one entry and takes the given number of effects. -/
def publishing (entry : Rewrite) (normal : Normal lower entry) (effects : Nat) : Round lower where
  desired := {entry}
  normal := normal_singleton normal
  dryRun := false
  moves := List.replicate effects .step

theorem publishing_undisturbed (entry : Rewrite) (normal : Normal lower entry) (effects : Nat) :
    (publishing entry normal effects).Undisturbed := by
  intro server member
  simp [publishing] at member

theorem normal_empty : ∀ entry ∈ (∅ : Finset Rewrite), Normal lower entry := by
  simp

/-- A server without rewrites. -/
def emptyServer (lower : Text → Text) : Server lower :=
  ⟨∅, normal_empty⟩

/-- The first run stops right after its addition, and the second one, which wants
the other name, cleans up after it. -/
theorem reconcile_converges_moved :
    ∃ journaled, readState (siteAfter (fresh (emptyServer Host.lower))
        [publishing nasRewrite nasRewrite_normal 4]).file = .ok journaled ∧
      ((publishing boxRewrite boxRewrite_normal 8).course (siteAfter
          (fresh (emptyServer Host.lower)) [publishing nasRewrite nasRewrite_normal 4])).state.server =
        ((siteAfter (fresh (emptyServer Host.lower))
          [publishing nasRewrite nasRewrite_normal 4]).server \
            (journaled \ (publishing boxRewrite boxRewrite_normal 8).desired)) ∪
          (publishing boxRewrite boxRewrite_normal 8).desired ∧
      Stored ((publishing boxRewrite boxRewrite_normal 8).course (siteAfter
        (fresh (emptyServer Host.lower)) [publishing nasRewrite nasRewrite_normal 4])).state.file
          (publishing boxRewrite boxRewrite_normal 8).desired :=
  (reconcile_converges (emptyServer Host.lower) [publishing nasRewrite nasRewrite_normal 4]
    (publishing boxRewrite boxRewrite_normal 8)).2.2 (1, 1) rfl rfl
    (publishing_undisturbed boxRewrite boxRewrite_normal 8)

end OhanaAgent.Host
