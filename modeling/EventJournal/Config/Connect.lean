import EventJournal.Config.Load
import EventJournal.LogServer.Http

/-!
# The store that settings lead to

A store in memory is always there, and a log server needs a usable address. No relational database can be
reached from here: the address is checked, and then no connection comes about.

Main statement: `connect_cases`, settings with the section of their backend connect to it, or fail for what the
section says.
-/

namespace EventJournal

/-- A store that settings lead to. -/
inductive Connection where
  | memory
  | logServer (log : HttpLog)
  deriving Repr, DecidableEq

/-- The name of the store. -/
def Connection.name : Connection → String
  | memory => BackendKind.memory.name
  | logServer _ => HttpLog.backend

/-- Why no connection to a relational database comes about: its address is none, or nobody answers. -/
def DatabaseSettings.refusal (settings : DatabaseSettings) : StoreError :=
  match Url.parse settings.url with
  | .error error => .database (.configuration error.message)
  | .ok _ => .database .poolTimedOut

namespace Settings

/-- Connects to the store of the backend. -/
def connect (settings : Settings) : Outcome Connection :=
  match settings.backend, settings.database, settings.logServer with
  | .memory, _, _ => .ok .memory
  | .postgres, some database, _ => .error database.refusal
  | .logServer, _, some server =>
    (HttpLog.create server.url server.username server.password).map .logServer
  | backend, _, _ => .error (SettingsError.missingSection backend).toStoreError

/-- Valid settings never miss a section when they connect. -/
theorem connect_cases {settings : Settings} (valid : settings.validate = .ok ()) :
    settings.connect = .ok .memory ∨
      (∃ database, settings.database = some database ∧ settings.connect = .error database.refusal) ∨
      ∃ server, settings.logServer = some server ∧
        settings.connect = (HttpLog.create server.url server.username server.password).map .logServer := by
  obtain ⟨hdatabase, hserver⟩ := settings.validate_ok_iff.mp valid
  unfold connect
  cases hbackend : settings.backend with
  | memory => exact .inl rfl
  | postgres =>
    obtain ⟨database, hsome⟩ := Option.isSome_iff_exists.mp (hdatabase hbackend)
    rw [hsome]
    exact .inr (.inl ⟨database, rfl, rfl⟩)
  | logServer =>
    obtain ⟨server, hsome⟩ := Option.isSome_iff_exists.mp (hserver hbackend)
    rw [hsome]
    exact .inr (.inr ⟨server, rfl, rfl⟩)

end Settings

end EventJournal
