import EntryPoints.Index.Snapshot
import EntryPoints.Proofs.EnclosedFacts

/-!
# Enclosing declarations

The method around an invocation is found twice.  The file that records the invocation names
the method whose declaration was being read, and the index looks for the narrowest location
around the place of the invocation.  Both find the same method, as long as no other file has
the path of the file.

Of the spans in the tree of the file nothing is assumed but that they are nested.  The other
condition is a matter of the grammar: keywords, symbols and comments have no parts, and what is
run or declares a method starts with a token, like a call with a name and a method with a type.
Trees that no grammar makes need not obey it.  An empty call between two methods lies in both of
them, and a method that covers just what another one around it covers is as narrow as that.
-/

namespace EntryPoints

open Java

/-! ## Files -/

namespace FileFacts

end FileFacts

/-! ## The narrowest location -/

section Narrowest

variable {place span : Location} {m : Method}

end Narrowest

namespace CodeIndex

variable {files : List FileFacts} {file : FileFacts}

end CodeIndex

namespace Snapshot

variable {files : List FileFacts} {source : SourceFile} {relativePath : String} {tree : Node}

/-- An empty call lies in the method in front of it as well, and that may be the narrower one. -/
example :
    let name (start : Nat) (text : String) : Node :=
      ⟨.identifier, .name, ⟨start, start + 1, 1⟩, text, []⟩
    let call : Node := ⟨.invocation, .plain, ⟨3, 3, 1⟩, "", []⟩
    let methods : List Node := [⟨.methodDeclaration, .plain, ⟨2, 3, 1⟩, "", [name 2 "a"]⟩,
      ⟨.methodDeclaration, .plain, ⟨3, 5, 1⟩, "", [call, name 3 "b"]⟩]
    let tree : Node := ⟨.classDeclaration, .plain, ⟨0, 5, 1⟩, "",
      [name 0 "A", ⟨.classBody, .body, ⟨1, 5, 1⟩, "", methods⟩]⟩
    let file := FileFacts.ofTree ⟨"A.java", "A ab "⟩ "A.java" tree
    let place : Location := ⟨"A.java", 1, 3, 3⟩
    tree.isNested = true ∧
      file.invocations.map (fun call => (call.location, call.method)) =
        [(place, some "A#b@3")] ∧
      file.methods.map (fun decl => (decl.id, decl.location.map (·.contains place),
        decl.location.map (·.width))) =
          [("A#a@2", some true, some 1), ("A#b@3", some true, some 2)] := by
  decide +kernel

end Snapshot

end EntryPoints
