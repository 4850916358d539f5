import TrackImage.Failure
import TrackImage.Files.Conditions
import TrackImage.Files.Path
import TrackImage.Stream.Batcher

/-!
# Pending outputs

An output is written to a temporary file in the directory of its destination
and is moved there when it is committed. Until then the destination is as it
was; when an output is discarded or its commit fails, the temporary file is
removed. To move or remove it, its directory is gone to anew by the
destination's path; if that leads to no directory any more, the file stays.
-/

namespace TrackImage.Files

structure PendingOutput where
  destination : String
  /-- Where the temporary file was made. -/
  temporary : Location
  batcher : Batcher Device.Sink

namespace PendingOutput

/-- Make the temporary file. -/
def create (conditions : Conditions) (path : String) (tree : Tree) :
    Except Failure PendingOutput × Tree :=
  match Conditions.barred conditions.creating (tree.enter (Path.parent path)) with
  | .error error => (.error (.cannotCreate path error), tree)
  | .ok directory =>
      let (temporary, tree) := tree.addTemporary directory
      (.ok ⟨path, temporary, .around conditions.emptySink Batcher.standardCapacity⟩, tree)

/-- The path by which the temporary file's directory is gone to. -/
def route (output : PendingOutput) : String :=
  Path.parent output.destination

/-- The temporary file is still where it was made. -/
def isPresent (output : PendingOutput) (tree : Tree) : Bool :=
  tree.isFile output.temporary

/-- The route still leads to a directory. -/
def isReachable (output : PendingOutput) (tree : Tree) : Bool :=
  (tree.enter output.route).isOk

/-- The tree with what reached the temporary file; nothing if that was taken away. -/
def save (output : PendingOutput) (tree : Tree) : Tree :=
  if output.isPresent tree then
    tree.put output.temporary (.file output.batcher.inner.taken)
  else tree

/-- Drop the output together with its temporary file, if that can be reached. -/
def discard (output : PendingOutput) (tree : Tree) : Tree :=
  if output.isPresent tree ∧ output.isReachable tree then tree.erase output.temporary
  else output.save tree

/-- Bytes of all writes that succeeded. -/
def accepted (output : PendingOutput) : Nat :=
  output.batcher.accepted

def write (output : PendingOutput) (bytes : List UInt8) : Except IoError Nat × PendingOutput :=
  let written := output.batcher.write bytes
  (written.1, { output with batcher := written.2 })

def flush (output : PendingOutput) : Except IoError Unit × PendingOutput :=
  let flushed := output.batcher.flush
  (flushed.1, { output with batcher := flushed.2 })

/-- Sync the temporary file and move it to the destination. -/
def place (conditions : Conditions) (output : PendingOutput) (tree : Tree) :
    Except Failure String × Tree :=
  match conditions.syncing with
  | some error => (.error (.device error), output.discard tree)
  | none =>
      match Conditions.barred conditions.moving
          (tree.rename output.route output.temporary output.destination) with
      | .error error => (.error (.cannotReplace output.destination error), output.discard tree)
      | .ok moved => (.ok output.destination, moved)

/-- Flush, then put the result in place. -/
def commit (conditions : Conditions) (output : PendingOutput) (tree : Tree) :
    Except Failure String × Tree :=
  match output.flush with
  | (.error error, flushed) => (.error (.device error), flushed.discard tree)
  | (.ok (), flushed) => flushed.place conditions (flushed.save tree)

end PendingOutput

end TrackImage.Files
