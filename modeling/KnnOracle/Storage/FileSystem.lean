/-
File systems.

A file system keeps contents under paths. Which paths it takes is its own
affair: a folder may be missing, a name too long, a right withheld. What
counts here is that it gives back what it took, under the path under which
it took it.
-/
import KnnOracle.Storage.Content

namespace KnnOracle.Storage

/-- Something that keeps files under paths. -/
class FileSystem (σ : Type) where
  /-- The content of the file that a path leads to. -/
  read : σ → Reader
  /-- The system after a file was written. -/
  write : σ → String → Content → Except FileFault σ
  /-- What was written under a path is read under it. -/
  read_of_write {before after : σ} {path : String} {content : Content}
    (h : write before path content = .ok after) :
    read after path = .ok content

end KnnOracle.Storage
