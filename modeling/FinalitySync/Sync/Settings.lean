import FinalitySync.Document.Form
import FinalitySync.Peer.Duration

/-!
What can be set for synchronisation.
-/

namespace FinalitySync.Sync

structure Settings where
  /-- How long a request for fragments may take. -/
  requestTimeout : Duration
  /-- How many superseded authority sets are kept. -/
  retention : Nat
  mailboxCapacity : Nat
deriving DecidableEq

namespace Settings

def standard : Settings := ⟨.ofSeconds 10, 8, 32⟩

instance : Inhabited Settings := ⟨standard⟩

/-- The names of the settings in documents. -/
def names : List String :=
  ["fragment_request_timeout", "retained_authority_sets", "notification_channel_capacity"]

/-- Counts are words of 64 bits. -/
def count : Form Nat := Form.below (2 ^ 64)

/-- The timeout in whole seconds. -/
def timeoutForm : Form Duration := count.via Duration.ofSeconds Duration.seconds

def ofValues? : List (Option Document) → Option Settings
  | [timeout, retention, capacity] => do
      return ⟨← timeoutForm.readOr? standard.requestTimeout timeout,
        ← count.readOr? standard.retention retention,
        ← count.readOr? standard.mailboxCapacity capacity⟩
  | _ => none

/-- Settings that a document leaves out are the standard ones. -/
def form : Form Settings where
  write settings :=
    .record (names.zip
      [timeoutForm.write settings.requestTimeout, count.write settings.retention,
        count.write settings.mailboxCapacity])
  read? document := (document.fieldsOrMissing? names).bind ofValues?

end Settings

end FinalitySync.Sync
