import Mathlib.Data.List.Basic

/-!
# The search for a local connection ID

`picoquic_create_local_cnxid` tries at most 32 values for a new connection ID, until one of them is
not registered in the context.

* **`CnxidDraws`** — where the values come from: a suggestion, random bytes, and a callback of the
  application, which may provide connection IDs of other lengths than the configured one;
* **`CnxidDraws.findUnique`** — the search.
-/

namespace Picoquic

/-- `picoquic_connection_id_t`. -/
abbrev ConnectionId : Type := List UInt8

/-- What `picoquic_create_local_cnxid` meets: the suggested value, the bytes that are drawn in each
round, and what `cnx_id_callback_fn` makes of them. -/
structure CnxidDraws where
  suggestedValue : Option ConnectionId
  draws : ℕ → ℕ → UInt8
  cnxIdCallback : Option (ℕ → ConnectionId → ConnectionId)

namespace CnxidDraws

/-- The bytes `byte` are drawn, there is no suggestion and no callback. -/
def plain (byte : UInt8) : CnxidDraws := ⟨none, fun _ _ => byte, none⟩

/-- The callback provides a connection ID without bytes. -/
def empty : CnxidDraws := ⟨none, fun _ _ => 7, some fun _ _ => []⟩

/-- The value that is tried in round `i`. -/
def candidate (x : CnxidDraws) (localCnxidLength i : ℕ) : ConnectionId :=
  match i, x.suggestedValue with
  | 0, some value => value
  | i, _ =>
    let drawn := (List.range localCnxidLength).map (x.draws i)
    x.cnxIdCallback.elim drawn fun callback => callback i drawn

/-- The first of 32 values that is not in use. A context in which connection IDs have no length
needs no search. -/
def findUnique (x : CnxidDraws) (localCnxidLength : ℕ) (isInUse : ConnectionId → Bool) :
    Option ConnectionId :=
  if localCnxidLength = 0 then some []
  else ((List.range 32).map (x.candidate localCnxidLength)).find? fun cnxId => !isInUse cnxId

/-- What the search finds is not in use. -/
theorem isInUse_of_findUnique {x : CnxidDraws} {localCnxidLength : ℕ}
    {isInUse : ConnectionId → Bool} {cnxId : ConnectionId} (hlength : localCnxidLength ≠ 0)
    (h : x.findUnique localCnxidLength isInUse = some cnxId) : isInUse cnxId = false := by
  rw [findUnique, if_neg hlength] at h
  simpa using List.find?_some h

end CnxidDraws

end Picoquic
