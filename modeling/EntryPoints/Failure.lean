import EntryPoints.Text.Quoted

/-!
# What can go wrong

Every failure of the library is one of these causes, and `message` is the only
place where it is put into words.

The causes fall into three groups.  A search may be cancelled.  A lookup may fail,
either for the moment or for good; a search goes on without it.  And a request may
be one that cannot be served: no such method, no index, no repository.
-/

namespace EntryPoints

inductive Failure where
  /-- The owner of the search asked it to stop. -/
  | cancelledByOwner
  /-- The knowledge base asked the search to stop. -/
  | cancelledByKnowledgeBase
  /-- A lookup asked the search to stop. -/
  | cancelledInLookup (reason : String)
  /-- A lookup failed for the moment. -/
  | lookupFailed (reason : String)
  /-- A lookup broke off for a reason nobody foresaw. -/
  | lookupBroken (reason : String)
  /-- The observer of a search broke off. -/
  | observerBroken (reason : String)
  | indexMissing
  | indexLate (seconds : String)
  | noRepository
  | repositoryMissing (path : String)
  | buildFailed (cause : Failure)
  /-- Waiting for an index whose last build failed. -/
  | unusableIndex (cause : Option Failure)
  | methodNotFound (spec : String)
  | methodAmbiguous (spec : String) (overloads : List String)
  | malformedSpec (spec : String)
  | searchFailed (cause : Failure)
  | statementSearchFailed (cause : Failure)
  | outsideBase (target base : String)
deriving Repr, Inhabited

namespace Failure

def message : Failure → String
  | cancelledByOwner => "Top-caller search was cancelled"
  | cancelledByKnowledgeBase => "Top-caller search was cancelled by the knowledge base"
  | cancelledInLookup reason => reason
  | lookupFailed reason => reason
  | lookupBroken reason => reason
  | observerBroken reason => reason
  | indexMissing => "The Java index has not been built"
  | indexLate seconds => "Java index not ready after " ++ seconds ++ " seconds"
  | noRepository => "No repository path to index"
  | repositoryMissing path => "Repository path does not exist: " ++ path
  | buildFailed cause => "Indexing failed: " ++ cause.message
  | unusableIndex none => "The Java index has not been built"
  | unusableIndex (some cause) => cause.message
  | methodNotFound spec => "Method not found: " ++ spec
  | methodAmbiguous spec overloads =>
    "Ambiguous method " ++ spec ++ ", add a parameter list to pick one of: " ++
      Text.joinWith ", " overloads
  | malformedSpec spec =>
    "Invalid method spec: " ++ Text.quoted spec ++
      " (expected pkg.Type#method or pkg.Type.method)"
  | searchFailed cause => "Top-caller search failed: " ++ cause.message
  | statementSearchFailed cause => "Statement search failed: " ++ cause.message
  | outsideBase target base =>
    "Path traversal detected: " ++ target ++ " is not within " ++ base

/-- Whether the failure is a request to stop. -/
def isCancellation : Failure → Bool
  | cancelledByOwner | cancelledByKnowledgeBase | cancelledInLookup _ => true
  | _ => false

/-- Whether a single lookup failed for the moment, so that its subject alone can
be left out. -/
def isTransient : Failure → Bool
  | lookupFailed _ => true
  | _ => false

/-- Whether the failure is one that a search may end with as it is; any other is
reported as the cause of a failed search. -/
def isForeseen : Failure → Bool
  | lookupBroken _ | observerBroken _ | repositoryMissing _ | malformedSpec _
  | outsideBase _ _ => false
  | _ => true

end Failure

end EntryPoints
