import Kraal.Foundation.Call
import Kraal.Foundation.MachineInt
import Kraal.Foundation.Run
import Kraal.Foundation.Storage

/-!
# The contract host

The part of the Soroban host that the contracts use: addresses, byte strings,
host values, the ledger sequence and time, and the authorization check.  Contract code is
a {lit}`Call` over this environment, so a contract error or a host trap anywhere
in a call rolls the whole call back.

The hash function is a parameter.  Where it has to be injective, a 32-byte
digest type would make that assumption contradictory, so {lit}`BytesN` does not
record its length: it is the array the contracts receive and hand back.

Main results:

- Definition {lit}`step`: one contract invocation, committed or rolled back.
- Theorem {lit}`step_induction`: a property of the store before and after every
  returning call is kept by every invocation.
- Theorem {lit}`requireAuth_eq_ok`: what a passed authorization check says.

Current gaps:

- Rows never expire: the contracts extend the lifetime of every row they touch,
  and lifetimes are not modelled.
-/

namespace Kraal

open Foundation

/-! ## Host data -/

/-- An account or contract address. -/
structure Address where
  index : Nat
deriving DecidableEq, Repr

/-- A short host symbol. -/
abbrev Symbol := String

/-- A host byte string. -/
abbrev Bytes := List UInt8

/-- A fixed-length byte array, the type of hashes and record ids. -/
structure BytesN where
  toArray : Bytes
deriving DecidableEq, Repr

/-- Byte arrays with the same bytes are the same. -/
theorem BytesN.mk_injective : Function.Injective BytesN.mk :=
  fun _ _ h => BytesN.mk.inj h

/-- A host value. -/
inductive Val where
  | address (a : Address)
  | symbol (s : Symbol)
  | u32 (n : U32)
  | bytes (b : Bytes)
  | vec (items : List Val)

/-- Conversion of a host value to a byte string, which succeeds on byte objects only. -/
def Bytes.tryFromVal : Val → Option Bytes
  | .bytes b => some b
  | _ => none

/-! ## Environment and authorization -/

/-- What a contract call can see of the host: the sequence and the closing time of the
current ledger, and the addresses that have authorized the call. -/
structure Env where
  sequence : U32
  timestamp : U64
  authorized : Address → Bool

/-- The environment of a call that the given addresses have signed, at time zero. -/
def Env.signedBy (sequence : U32) (signers : List Address) : Env where
  sequence := sequence
  timestamp := 0
  authorized a := signers.contains a

/-- The one who signs is authorised. -/
theorem Env.authorized_signedBy (sequence : U32) (a : Address) :
    (Env.signedBy sequence [a]).authorized a = true := by
  simp [Env.signedBy]

variable {σ ε : Type}

/-- Trap unless an address has authorized the call. -/
def requireAuth (a : Address) : Call Env σ ε Unit := do
  let env ← Call.ask
  Call.assert (env.authorized a)

/-- A call goes on when the address has authorised it. -/
@[simp]
theorem requireAuth_eq_ok {a : Address} {env : Env} {s : σ} {p : Unit × σ} :
    (requireAuth a : Call Env σ ε Unit) env s = .ok p ↔ env.authorized a ∧ p = ((), s) := by
  simp [requireAuth]

/-- A call without the authorisation traps. -/
@[simp]
theorem requireAuth_eq_error {a : Address} {env : Env} {s : σ} {f : Fault ε} :
    (requireAuth a : Call Env σ ε Unit) env s = .error f ↔
      env.authorized a = false ∧ f = .trap := by
  simp [requireAuth, Call.bind_eq_error]

/-! ## Cryptography -/

/-- The cryptographic functions of the host, of which a contract only sees the results. -/
structure Crypto where
  sha256 : Bytes → BytesN
  ed25519Verify : BytesN → Bytes → BytesN → Bool

/-- Trap unless a signature of a message is valid under a public key. -/
def ed25519Verify (crypto : Crypto) (publicKey : BytesN) (message : Bytes) (signature : BytesN) :
    Call Env σ ε Unit :=
  Call.assert (crypto.ed25519Verify publicKey message signature = true)

/-- A call goes on when the signature is good. -/
@[simp]
theorem ed25519Verify_eq_ok {crypto : Crypto} {publicKey : BytesN} {message : Bytes}
    {signature : BytesN} {env : Env} {s : σ} {p : Unit × σ} :
    (ed25519Verify crypto publicKey message signature : Call Env σ ε Unit) env s = .ok p ↔
      crypto.ed25519Verify publicKey message signature = true ∧ p = ((), s) :=
  Call.assert_eq_ok

/-! ## Invocations -/

/-- One invocation of a contract: the environment it runs in and the call it makes. -/
structure Invocation (Op : Type) where
  env : Env
  call : Op

/-- The effect of an invocation on the store of a contract. -/
def step {Op : Type} (exec : Op → Call Env σ ε Unit) (s : σ) (i : Invocation Op) : σ :=
  (exec i.call).commit i.env s

/-- A call that succeeds leaves the state that it returns. -/
theorem step_of_ok {Op : Type} {exec : Op → Call Env σ ε Unit} {s s' : σ} {i : Invocation Op}
    (h : exec i.call i.env s = .ok ((), s')) : step exec s i = s' :=
  Call.commit_of_ok h

/-- A call that fails leaves the state as it was. -/
theorem step_of_not_succeeds {Op : Type} {exec : Op → Call Env σ ε Unit} {s : σ}
    {i : Invocation Op} (h : ¬ (exec i.call).Succeeds i.env s) : step exec s i = s :=
  Call.commit_of_not_succeeds h

/-- What holds of a store and of every store an invocation can return with holds
after the invocation. -/
theorem step_induction {Op : Type} {exec : Op → Call Env σ ε Unit} {P : σ → Prop} {s : σ}
    {i : Invocation Op} (hold : P s) (hok : ∀ s', exec i.call i.env s = .ok ((), s') → P s') :
    P (step exec s i) :=
  Call.commit_induction hold fun _ => hok

end Kraal
