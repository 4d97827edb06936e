import Mathlib.Data.Finset.Image
import OhanaAgent.Encoding.JsonRoundTrip
import OhanaAgent.Host.Dhcp
import OhanaAgent.Transition.Program

/-!
# The synchronization of reserved names

The reserved DHCP names are published as DNS rewrites of an AdGuard server.  A
run reads the journal of the entries it owns, compares the server with the
desired entries, journals its intent, changes the server and verifies it.  It is
a program over the effects that another process or a crash can come between.
-/

namespace OhanaAgent.Host

open Encoding.Json (Atom Fields Items Number Text Value)
open Transition (Program)
open Transition.Program (ask)

/-- A DNS rewrite: a domain and its answer. -/
abbrev Rewrite := Text × Text

/-- The constant `DOMAIN`. -/
def localDomain : Text := "ohana.lan".toList

/-- Why a run raises. -/
inductive SyncFailure where
  | missingConfiguration
  | dhcp (refusal : Refusal)
  | dhcpDomain
  | outsideDomain (hostname : Text)
  | invalidName (name : Text)
  | duplicateName
  | invalidState
  | invalidList
  | invalidRewrite
  | managedOutside
  | managedAnswer
  | conflicting (names : Finset Text)
  | unconfirmed
  deriving DecidableEq

/-! ## Reserved names -/

/-- A letter in lower case or a digit. -/
def isLowerAlnum (c : Char) : Bool :=
  (48 ≤ c.toNat && c.toNat ≤ 57) || (97 ≤ c.toNat && c.toNat ≤ 122)

/-- One label of a reserved name. -/
def isReservedLabel (label : Text) : Bool :=
  1 ≤ label.length && label.length ≤ 63 && label.all (fun c => isLowerAlnum c || c == '-') &&
    label.head?.any isLowerAlnum && label.getLast?.any isLowerAlnum

/-- The published name of a reserved host. -/
def publishedName (hostname : Text) : Except SyncFailure Text :=
  if ('.' :: localDomain).isSuffixOf hostname then .ok hostname
  else if !hostname.contains '.' then .ok (hostname ++ '.' :: localDomain)
  else .error (.outsideDomain hostname)

/-- The rewrite of one reservation. -/
def reservedRewrite (row : Reservation) : Except SyncFailure Rewrite := do
  let name ← publishedName row.hostname.text
  if 253 < name.length || !(name.splitOn '.').all isReservedLabel then .error (.invalidName name)
  else pure (name, row.address.text)

/-- `read_reserved_names`. -/
def readReservedNames (repository : Repository) (files : Files) :
    Except SyncFailure (Finset Rewrite) :=
  if files.main.isNone || repository.reservationPaths.any fun path =>
      (files.reservations path).isNone then .error .missingConfiguration
  else
    match repository.readConfiguration files with
    | .error refusal => .error (.dhcp refusal)
    | .ok configuration =>
        if configuration.settings.domain.text ≠ localDomain then .error .dhcpDomain
        else do
          let names ← configuration.reservations.mapM reservedRewrite
          if (names.toFinset.image Prod.fst).card ≠ names.toFinset.card then
            .error .duplicateName
          else pure names.toFinset

/-! ## The journal -/

/-- The order of `sorted` on pairs of texts. -/
def rewriteLE (first second : Rewrite) : Prop :=
  first.1 ≤ second.1 ∧ (first.1 = second.1 → first.2 ≤ second.2)

instance : DecidableRel rewriteLE :=
  fun first second => inferInstanceAs (Decidable (first.1 ≤ second.1 ∧ (_ → _)))

instance : IsTrans Rewrite rewriteLE where
  trans first second third := by
    rintro ⟨le, tie⟩ ⟨le', tie'⟩
    refine ⟨List.le_trans le le', ?_⟩
    intro same
    have middle : first.1 = second.1 := List.le_antisymm le (same ▸ le')
    exact List.le_trans (tie middle) (tie' (middle.symm.trans same))

instance : Std.Antisymm rewriteLE where
  antisymm first second := by
    rintro ⟨le, tie⟩ ⟨le', tie'⟩
    have same : first.1 = second.1 := List.le_antisymm le le'
    exact Prod.ext same (List.le_antisymm (tie same) (tie' same.symm))

instance : Std.Total rewriteLE where
  total first second := by
    by_cases same : first.1 = second.1
    · rcases List.le_total first.2 second.2 with le | le
      · exact Or.inl ⟨by rw [same]; exact List.le_refl _, fun _ => le⟩
      · exact Or.inr ⟨by rw [same]; exact List.le_refl _, fun _ => le⟩
    · rcases List.le_total first.1 second.1 with le | le
      · exact Or.inl ⟨le, fun tie => absurd tie same⟩
      · exact Or.inr ⟨le, fun tie => absurd tie.symm same⟩

theorem insertionSort_congr {first second : List Rewrite} (perm : first.Perm second) :
    first.insertionSort rewriteLE = second.insertionSort rewriteLE := by
  have both := (List.perm_insertionSort rewriteLE first).trans
    (perm.trans (List.perm_insertionSort rewriteLE second).symm)
  exact both.eq_of_pairwise' (List.pairwise_insertionSort rewriteLE first)
    (List.pairwise_insertionSort rewriteLE second)

/-- `sorted` on a set of rewrites. -/
def sortedRewrites (entries : Finset Rewrite) : List Rewrite :=
  Quotient.lift (List.insertionSort rewriteLE) (fun _ _ => insertionSort_congr) entries.val

theorem mem_sortedRewrites {entries : Finset Rewrite} {entry : Rewrite} :
    entry ∈ sortedRewrites entries ↔ entry ∈ entries := by
  obtain ⟨⟨list⟩, distinct⟩ := entries
  exact (List.perm_insertionSort rewriteLE list).mem_iff

theorem toFinset_sortedRewrites (entries : Finset Rewrite) :
    (sortedRewrites entries).toFinset = entries := by
  ext entry
  rw [List.mem_toFinset, mem_sortedRewrites]

def schemaKey : Text := "schema_version".toList

def rewritesKey : Text := "rewrites".toList

def domainField : Text := "domain".toList

def answerField : Text := "answer".toList

/-- One entry of the journal. -/
def entryDocument (entry : Rewrite) : Value :=
  .object (Fields.ofList [(domainField, .string entry.1), (answerField, .string entry.2)])

/-- The document that `write_state` saves. -/
def stateDocument (entries : Finset Rewrite) : Value :=
  .object (Fields.ofList [(schemaKey, .number (.ofNat 1)),
    (rewritesKey, .array (Items.ofList ((sortedRewrites entries).map entryDocument)))])

/-- Whether a document field equals the integer one; a true literal does. -/
def isOne : Option Value → Bool
  | some (.number number) => number.toInt? = some 1
  | some (.atom literal) => literal = .true
  | _ => false

/-- The address of an integer below `2 ^ 32`. -/
def addressOf (value : Nat) : Address :=
  .ofOctets (value / 16777216) (value / 65536) (value / 256) value

/-- `str(IPv4Address(answer))`: a text, an integer, or a literal that is one. -/
def managedAnswer : Option Value → Option Text
  | some (.string content) => (Address.parse content).map Address.text
  | some (.number number) =>
      match number.toInt? with
      | some (.ofNat value) =>
          if value < 4294967296 then some (addressOf value).text else none
      | _ => none
  | some (.atom .true) => some (addressOf 1).text
  | some (.atom .false) => some (addressOf 0).text
  | _ => none

/-- One managed entry of the journal. -/
def managedEntry (name answer : Option Value) : Except SyncFailure Rewrite :=
  match name with
  | some (.string name) =>
      if ('.' :: localDomain).isSuffixOf name then
        match managedAnswer answer with
        | some answer => .ok (name, answer)
        | none => .error .managedAnswer
      else .error .managedOutside
  | _ => .error .managedOutside

/-- The loop of `read_state`. -/
def readEntries : Items → Except SyncFailure (Finset Rewrite)
  | .nil => .ok ∅
  | .cons (.object fields) rest => do
      let entry ← managedEntry (fields.lookup domainField) (fields.lookup answerField)
      let others ← readEntries rest
      pure (insert entry others)
  | .cons _ _ => .error .invalidRewrite

/-- `read_state`; a missing file owns nothing. -/
def readState : Option Value → Except SyncFailure (Finset Rewrite)
  | none => .ok ∅
  | some (.object fields) =>
      if isOne (fields.lookup schemaKey) then
        match fields.lookup rewritesKey with
        | some (.array items) => readEntries items
        | _ => .error .invalidList
      else .error .invalidState
  | some _ => .error .invalidState

/-! ## Effects -/

/-- The two changes of the rewrite API. -/
inductive Action where
  | add
  | delete
  deriving DecidableEq

/-- The effects of a run: on the journal file and on the server. -/
inductive Effect where
  | loadState
  | entries
  | writeState (entries : Finset Rewrite)
  | change (action : Action) (entry : Rewrite)

/-- What an effect answers. -/
abbrev Effect.Answer : Effect → Type
  | .loadState => Option Value
  | .entries => Finset Rewrite
  | .writeState _ => Unit
  | .change _ _ => Unit

/-- The journal file and the entries of the server. -/
structure Site where
  file : Option Value
  server : Finset Rewrite

/-- What `AdGuardAPI.entries` makes of an entry, with `str.lower` as a
parameter. -/
def normalized (lower : Text → Text) (entry : Rewrite) : Rewrite :=
  ((lower entry.1).rdropWhile (· == '.'), entry.2)

/-- The meaning of the effects. -/
def perform (lower : Text → Text) : (effect : Effect) → Site → effect.Answer × Site
  | .loadState, site => (site.file, site)
  | .entries, site => (site.server.image (normalized lower), site)
  | .writeState entries, site => ((), { site with file := some (stateDocument entries) })
  | .change .add entry, site => ((), { site with server := insert entry site.server })
  | .change .delete entry, site => ((), { site with server := site.server.erase entry })

/-- A run and what it returns. -/
abbrev Sync := Program Effect Effect.Answer SyncFailure

/-- Raise the failure of a computation. -/
def raised {α : Type} : Except SyncFailure α → Sync α
  | .ok value => .done value
  | .error failure => .fail failure

/-- `AdGuardAPI.entries`. -/
def serverEntries : Sync (Finset Rewrite) :=
  ask Effect.entries

/-- `AdGuardAPI.change`. -/
def change (action : Action) (entry : Rewrite) : Sync Unit :=
  ask (Effect.change action entry)

/-- Save the entries unless the journal holds them already. -/
def saveUnless (current entries : Finset Rewrite) : Sync Unit :=
  if entries ≠ current then ask (Effect.writeState entries) else pure ()

/-- The current entries that hold a desired name with an answer that is neither
desired nor owned. -/
def conflicts (desired previous current : Finset Rewrite) : Finset Rewrite :=
  current.filter fun entry => entry.1 ∈ desired.image Prod.fst ∧ entry ∉ desired ∪ previous

/-- The part of `reconcile` that changes the journal and the server. -/
def applyChanges (desired previous current : Finset Rewrite) : Sync (Nat × Nat) := do
  saveUnless previous (previous ∪ desired)
  (sortedRewrites (desired \ current)).forM (change .add)
  (sortedRewrites ((previous \ desired) ∩ current)).forM (change .delete)
  let verified ← serverEntries
  if ¬ desired ⊆ verified ∨ ((previous \ desired) ∩ current ∩ verified).Nonempty then
    .fail .unconfirmed
  else do
    saveUnless (previous ∪ desired) desired
    pure ((desired \ current).card, ((previous \ desired) ∩ current).card)

/-- `reconcile`. -/
def reconcile (desired : Finset Rewrite) (dryRun : Bool) : Sync (Nat × Nat) := do
  let document ← ask Effect.loadState
  let previous ← raised (readState document)
  let current ← serverEntries
  if (conflicts desired previous current).Nonempty then
    .fail (.conflicting ((conflicts desired previous current).image Prod.fst))
  else if dryRun then
    pure ((desired \ current).card, ((previous \ desired) ∩ current).card)
  else applyChanges desired previous current

end OhanaAgent.Host
