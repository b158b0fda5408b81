import Blackboard.Capture
import Blackboard.Query

/-!
# Databases

A database is a store of facts together with the templates for missing ones. A
query records what its misses capture and leaves the facts alone.
-/

namespace Blackboard

/-- Facts, templates and captures. -/
structure Database where
  store : Store := ∅
  captures : Captures := ∅

namespace Database

instance : EmptyCollection Database := ⟨{}⟩
instance : Inhabited Database := ⟨∅⟩

/-- Stores a claim as a fact; a claim that cannot be one is passed over. -/
def insert (db : Database) (claim : Claim) : Database :=
  { db with store := db.store.insert claim }

def insertAll (db : Database) (claims : List Claim) : Database := claims.foldl insert db

/-- Stores a claim as a fact, or says why it cannot be one. -/
def insert? (db : Database) (claim : Claim) : Except Refusal Database :=
  (db.store.insert? claim).map fun store => { db with store }

/-- Whether a ground claim is stored as a fact. -/
def contains (db : Database) (claim : Claim) : Bool := db.store.contains claim

/-- Registers a template for its claim name, in place of an earlier one. -/
def register (db : Database) (template : Claim) : Except Refusal Database :=
  (db.captures.register template).map fun captures => { db with captures }

/-- The matches of a conjunction, and the database with its misses recorded. -/
def query (db : Database) (patterns : List Claim) : List Match × Database :=
  let answer := db.store.answer patterns
  (answer.found, { db with captures := db.captures.missAll answer.misses })

end Database

end Blackboard
