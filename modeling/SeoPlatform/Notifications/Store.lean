import SeoPlatform.Foundation.ConstrainedTable
import SeoPlatform.Notifications.Deliver

namespace SeoPlatform.Notifications.Store

open SeoPlatform.Foundation.ConstrainedTable
open SeoPlatform.Notifications.Deliver

inductive DeliveryStatus where
  | sending
  | sent
  | failed
  deriving DecidableEq, Repr

/-- A row of `notification_deliveries`, without its id and its moments. -/
structure Delivery where
  channelId : String
  eventId : String
  eventType : String
  status : DeliveryStatus := .sending
  httpStatus : Option Nat := none
  error : Option String := none
  attempts : Nat := 0
  deriving DecidableEq, Repr

def Delivery.isOf (channelId eventId : String) (row : Delivery) : Bool :=
  row.channelId = channelId && row.eventId = eventId

/-- `UNIQUE (channel_id, event_id)`. -/
def SamePair (a b : Delivery) : Prop := a.channelId = b.channelId ∧ a.eventId = b.eventId

instance : DecidableRel SamePair := fun _ _ => inferInstanceAs (Decidable (_ ∧ _))

abbrev Deliveries := Table Delivery SamePair

/-- `INSERT ... ON CONFLICT DO NOTHING RETURNING id`: whether a row came back. -/
def claim (deliveries : Deliveries) (channelId eventId eventType : String) : Bool × Deliveries :=
  match deliveries.insert {
    channelId := channelId, eventId := eventId, eventType := eventType } with
  | none => (false, deliveries)
  | some after => (true, after)

def Delivery.finished (channelId eventId : String) (ok : Bool) (status : Option Nat)
    (error : Option String) (row : Delivery) : Delivery :=
  if row.isOf channelId eventId then
    { row with
      status := if ok then .sent else .failed
      httpStatus := status
      error := error
      attempts := row.attempts + 1 }
  else row

@[simp] theorem channelId_finished {channelId eventId : String} {ok : Bool} {status : Option Nat}
    {error : Option String} (row : Delivery) :
    (row.finished channelId eventId ok status error).channelId = row.channelId := by
  unfold Delivery.finished
  split <;> rfl

@[simp] theorem eventId_finished {channelId eventId : String} {ok : Bool} {status : Option Nat}
    {error : Option String} (row : Delivery) :
    (row.finished channelId eventId ok status error).eventId = row.eventId := by
  unfold Delivery.finished
  split <;> rfl

def finish (deliveries : Deliveries) (channelId eventId : String) (ok : Bool)
    (status : Option Nat) (error : Option String) : Deliveries :=
  deliveries.update (Delivery.finished channelId eventId ok status error) fun a b h => by
    simpa [SamePair] using h

def release (deliveries : Deliveries) (channelId eventId : String) : Deliveries :=
  deliveries.delete (Delivery.isOf channelId eventId)

/-- The row of a pair. -/
def delivery? (deliveries : Deliveries) (channelId eventId : String) : Option Delivery :=
  deliveries.rows.find? (Delivery.isOf channelId eventId)

/-- The channels that belong to a tenant, or to nobody. -/
def channelsFor (channels : List Channel) (tenantId : Option String) : List Channel :=
  channels.filter fun channel => channel.tenantId = tenantId

section Rows

variable {deliveries : Deliveries} {channelId eventId eventType channelId' eventId' : String}

/-- What a pair's row is after a claim of some pair. -/
theorem delivery?_claim :
    delivery? (claim deliveries channelId eventId eventType).2 channelId' eventId' =
      if (claim deliveries channelId eventId eventType).1 ∧ channelId' = channelId ∧
          eventId' = eventId then
        some { channelId := channelId, eventId := eventId, eventType := eventType }
      else delivery? deliveries channelId' eventId' := by
  unfold claim
  cases hinsert : deliveries.insert {
      channelId := channelId, eventId := eventId, eventType := eventType } with
  | none => simp
  | some after =>
      obtain ⟨hapart, hrows⟩ := Table.insert_eq_some.mp hinsert
      unfold delivery?
      dsimp only
      rw [hrows, List.find?_append]
      by_cases hpair : channelId' = channelId ∧ eventId' = eventId
      · obtain ⟨rfl, rfl⟩ := hpair
        have hnone : deliveries.rows.find? (Delivery.isOf channelId' eventId') = none := by
          apply List.find?_eq_none.mpr
          intro row hrow hsame
          apply hapart row hrow
          simpa [Delivery.isOf, SamePair] using hsame
        simp [hnone, Delivery.isOf]
      · have hnew : Delivery.isOf channelId' eventId' {
            channelId := channelId, eventId := eventId, eventType := eventType } = false := by
          apply Bool.eq_false_iff.mpr
          intro hsame
          simp only [Delivery.isOf, Bool.and_eq_true, decide_eq_true_eq] at hsame
          exact hpair ⟨hsame.1.symm, hsame.2.symm⟩
        rw [if_neg (by simpa using hpair)]
        simp [hnew]

/-- A claim wins where there is no row of the pair. -/
theorem claim_wins_iff : (claim deliveries channelId eventId eventType).1 = true ↔
    delivery? deliveries channelId eventId = none := by
  unfold claim
  cases hinsert : deliveries.insert {
      channelId := channelId, eventId := eventId, eventType := eventType } with
  | none =>
      refine iff_of_false Bool.false_ne_true ?_
      intro hnone
      have hapart : ∀ old ∈ deliveries.rows, ¬ SamePair old {
          channelId := channelId, eventId := eventId, eventType := eventType } := by
        intro old hold hsame
        refine List.find?_eq_none.mp hnone old hold ?_
        simpa [Delivery.isOf, SamePair] using hsame
      rw [Table.insert, dif_pos hapart] at hinsert
      contradiction
  | some after =>
      refine iff_of_true rfl ?_
      obtain ⟨hapart, -⟩ := Table.insert_eq_some.mp hinsert
      apply List.find?_eq_none.mpr
      intro row hrow hsame
      apply hapart row hrow
      simpa [Delivery.isOf, SamePair] using hsame

theorem delivery?_finish {ok : Bool} {status : Option Nat} {error : Option String} :
    delivery? (finish deliveries channelId eventId ok status error) channelId' eventId' =
      (delivery? deliveries channelId' eventId').map
        (Delivery.finished channelId eventId ok status error) := by
  unfold delivery? finish
  rw [Table.rows_update, List.find?_map]
  congr 2
  funext row
  simp [Delivery.isOf]

theorem delivery?_release :
    delivery? (release deliveries channelId eventId) channelId' eventId' =
      if channelId' = channelId ∧ eventId' = eventId then none
      else delivery? deliveries channelId' eventId' := by
  unfold delivery? release Table.delete
  rw [List.find?_filter]
  by_cases hpair : channelId' = channelId ∧ eventId' = eventId
  · obtain ⟨rfl, rfl⟩ := hpair
    rw [if_pos ⟨rfl, rfl⟩]
    apply List.find?_eq_none.mpr
    intro row _
    simp
  · rw [if_neg hpair]
    congr 1
    funext row
    by_cases hrow : row.isOf channelId' eventId' = true
    · have hother : row.isOf channelId eventId = false := by
        apply Bool.eq_false_iff.mpr
        intro hsame
        apply hpair
        simp only [Delivery.isOf, Bool.and_eq_true, decide_eq_true_eq] at hrow hsame
        exact ⟨hrow.1.symm.trans hsame.1, hrow.2.symm.trans hsame.2⟩
      simp [hrow, hother]
    · simp [hrow]

theorem isOf_of_delivery? {row : Delivery} (h : delivery? deliveries channelId eventId = some row) :
    row.channelId = channelId ∧ row.eventId = eventId := by
  have hpair := List.find?_some h
  simpa [Delivery.isOf] using hpair

end Rows

end SeoPlatform.Notifications.Store
