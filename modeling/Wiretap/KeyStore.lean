import Wiretap.Certificate.Presentable
import Wiretap.Failure

/-!
# Key stores

A key store in memory holds one key with its chain of certificates, under a
fixed alias and password. A TLS server can be set up from it when the key can
be read and the first certificate of the chain is the key's.
-/

set_option autoImplicit false

namespace Wiretap

structure KeyStore where
  chain : List Bytes
  key : Bytes
  form : KeyForm
  deriving DecidableEq, Repr, Inhabited

namespace KeyStore

def entryName : String := "server"

def password : String := "changeit"

def entry? (k : KeyStore) (name secret : String) : Option (List Bytes × Bytes) :=
  if name = entryName ∧ secret = password then some (k.chain, k.key) else none

def structureText (k : KeyStore) : String :=
  inBraces "KeyStore" s!"alias: {Text.Quoted.text entryName}, chain_len: {k.chain.length}, .."

def serverCertificate (k : KeyStore) : Except CertificateFailure Bytes :=
  match PrivateKey.read? k.form k.key with
  | none => .error (.keyStore "failed to parse private key as RSA, ECDSA, or EdDSA")
  | some key =>
    match k.chain with
    | [] => .error (.keyStore "no certificates presented")
    | first :: _ =>
      match Presentable.publicInfo? first with
      | none => .error (.keyStore "invalid peer certificate: BadEncoding")
      | some info =>
        if info = key.publicInfo then .ok first
        else .error (.keyStore "keys may not be consistent: KeyMismatch")

end KeyStore
end Wiretap
