import Sandroid.Core.Domain

/-!
# The session store

`InMemorySessionStore` of `storage/session_store.py`.  `get` and `put` copy the
session, so a store and a session taken from it are independent values here.
`create` keeps the object it returns; its caller stores it again before anything
else can see a difference.

`uuid4().hex` is a parameter: `uuid k` is the id that the `k`-th call of
`create` draws.
-/

namespace Sandroid
namespace Storage

open Lib Sandroid.Core

/-- Every session is stored under its own id. -/
def Keyed (byId : Dict String Session) : Prop :=
  ∀ id session, byId.get? id = some session → session.sessionId = id

theorem keyed_empty : Keyed Dict.empty := by
  intro id session h
  rw [Dict.get?_empty] at h
  cases h

theorem keyed_set {byId : Dict String Session} (h : Keyed byId) (session : Session) :
    Keyed (byId.set session.sessionId session) := by
  intro id s hs
  rw [Dict.get?_set] at hs
  split_ifs at hs with hid
  · cases hs
    exact hid
  · exact h id s hs

/-- The sessions by id, and the number of ids drawn so far. -/
structure SessionStore where
  byId : Dict String Session
  keyed : Keyed byId
  issued : Nat

namespace SessionStore

def empty : SessionStore :=
  { byId := Dict.empty, keyed := keyed_empty, issued := 0 }

def put (store : SessionStore) (session : Session) : SessionStore :=
  { store with
    byId := store.byId.set session.sessionId session
    keyed := keyed_set store.keyed session }

def create (uuid : Nat → String) (store : SessionStore) (currentCategoryId : CategoryId) :
    Session × SessionStore :=
  let session : Session :=
    { sessionId := uuid store.issued, currentCategoryId := currentCategoryId }
  (session, { store.put session with issued := store.issued + 1 })

def get (store : SessionStore) (sessionId : String) : Except PyError Session :=
  match store.byId.get? sessionId with
  | none => .error (.unknownSession sessionId)
  | some session => .ok session

theorem get_eq_ok_iff (store : SessionStore) (sessionId : String) (session : Session) :
    store.get sessionId = .ok session ↔ store.byId.get? sessionId = some session := by
  unfold get
  cases store.byId.get? sessionId with
  | none => simp
  | some s => simp

@[simp] theorem byId_put (store : SessionStore) (session : Session) :
    (store.put session).byId = store.byId.set session.sessionId session := rfl

/-- Storing a session again keeps the number of sessions. -/
theorem size_put_of_known {store : SessionStore} {session old : Session}
    (h : store.byId.get? session.sessionId = some old) :
    (store.put session).byId.size = store.byId.size := by
  rw [byId_put, Dict.size_set, if_pos ((Dict.mem_keys_iff _ _).mpr ⟨old, h⟩)]

end SessionStore

end Storage
end Sandroid
