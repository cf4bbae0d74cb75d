import DeviceAttest.Chain.Basic
import DeviceAttest.Device

/-!
# What a call asks of its collaborators

A call asks a source for identifiers, a keystore to delete, generate and attest a key, and a decoder
for certificates.  A key is named by the text of its alias.  Each query has its own type of reply,
and any of them may be left without an answer, by a fault of the collaborator.
-/

namespace DeviceAttest

/-- How a collaborator broke off. -/
structure Fault where
  text : String
  deriving DecidableEq

/-- A question to a collaborator. -/
inductive Query where
  | telephony
  | serial
  | imei (slot : UInt32)
  | meid
  | buildProperties
  | deleteKey (key : String)
  | generateKey (key : String) (params : AuthorizationSet)
  | attestKey (key : String) (params : AuthorizationSet)
  | decode (stream : Bytes)
  deriving DecidableEq

/-- What a collaborator may reply to a question. -/
abbrev Query.Reply : Query → Type
  | telephony       => Except Fault Bool
  | serial          => Except Fault (Except SourceError String)
  | imei _          => Except Fault (Except SourceError (Option String))
  | meid            => Except Fault (Except SourceError (Option String))
  | buildProperties => Except Fault BuildProperties
  | deleteKey _     => Except Fault Bool
  | generateKey _ _ => Except Fault (Except StatusCode KeyCharacteristics)
  | attestKey _ _   => Except Fault (Except StatusCode (List Bytes))
  | decode _        => Except Fault (Except DecodeError (List Certificate))

end DeviceAttest
