import GlassHive.Delivered

/-!
# The delivery lease protocol

A callback in delivery belongs to the sender that presents its lease token and delivery generation,
until an outcome settles it or the lease expires and a reclaim takes it back. Every claim raises the
generation, so a lease that is over never becomes current again. A dead letter without a lease is
the one operation that does not keep the protocol.
-/

namespace GlassHive

open Relational

variable {η : Type} [DecidableEq η]

/-- The lease that an operation presents for a callback. -/
def DeliveryOp.presented : DeliveryOp η → Option (CallbackName η × TokenText × ℤ)
  | .callbackDeliveryIsCurrent name token generation
  | .expireCallbackDeliveryLease name token generation
  | .markCallbackHttpAccepted name token generation _ _
  | .markCallbackReceiverSuperseded name token generation _ _ => some (name, token, generation)
  | .markCallbackPending name token generation _ _ _ =>
    generation.map fun generation => (name, token.getD .other, generation)
  | .markCallbackDeadLettered name token generation _ _ _ =>
    token.bind fun token => generation.map fun generation => (name, token, generation)
  | .store _ | .insertCallbackIntent _ | .claimPendingCallback _
  | .claimTerminalCallbackRecovery _ _ | .reclaimStaleDeliveringCallbacks _ _ => none

/-- The operation claims a delivery. -/
def DeliveryOp.claims : DeliveryOp η → Bool
  | .claimPendingCallback _ | .claimTerminalCallbackRecovery _ _ => true
  | _ => false

namespace DeliveryStore

variable {H : Digests η} {d d' : DeliveryStore η} {call : DeliveryCall η} {name : CallbackName η}
  {c c' : Callback η}

/-- A callback in delivery has a lease that expires. -/
def Leased (d : DeliveryStore η) : Prop :=
  ∀ name c, d.outbox.get? name = some c → c.status = .delivering →
    ∃ expiresAt, c.deliveryLeaseExpiresAt = some expiresAt

/-! ## What the operations may leave -/

theorem leased_init (settings : Settings) (delivery : DeliverySettings) :
    (init settings delivery : DeliveryStore η).Leased := by
  intro name c hc
  cases hc

/-! ## The protocol -/

end DeliveryStore

end GlassHive
