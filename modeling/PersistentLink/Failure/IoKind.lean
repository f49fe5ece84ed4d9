/-!
# Kinds of failure of input and output

A failure of input or output is filed under a kind. Streams meet the kinds of the first group;
the others are kinds under which the operating system's errors are filed.

## Main definitions

- `IoKind`: the kinds
- `IoKind.message`: what a failure says that is known by its kind alone
-/

namespace PersistentLink

/-- The kinds of failure of input and output. -/
inductive IoKind
  | notFound
  | permissionDenied
  | connectionRefused
  | connectionReset
  | connectionAborted
  | notConnected
  | addressInUse
  | addressNotAvailable
  | hostUnreachable
  | networkUnreachable
  | brokenPipe
  | alreadyExists
  | wouldBlock
  | invalidInput
  | invalidData
  | timedOut
  | writeZero
  | interrupted
  | unsupported
  | unexpectedEnd
  | outOfMemory
  | other
  | argumentListTooLong
  | crossesDevices
  | deadlock
  | directoryNotEmpty
  | executableFileBusy
  | fileTooLarge
  | filesystemLoop
  | inProgress
  | invalidFilename
  | isADirectory
  | networkDown
  | notADirectory
  | notSeekable
  | quotaExceeded
  | readOnlyFilesystem
  | resourceBusy
  | staleHandle
  | storageFull
  | tooManyLinks
  | tooManyOpenFiles
  | uncategorized
  deriving DecidableEq, Repr, Inhabited

/-- What a failure says that is known by its kind alone. -/
def IoKind.message : IoKind → String
  | notFound => "entity not found"
  | permissionDenied => "permission denied"
  | connectionRefused => "connection refused"
  | connectionReset => "connection reset"
  | connectionAborted => "connection aborted"
  | notConnected => "not connected"
  | addressInUse => "address in use"
  | addressNotAvailable => "address not available"
  | hostUnreachable => "host unreachable"
  | networkUnreachable => "network unreachable"
  | brokenPipe => "broken pipe"
  | alreadyExists => "entity already exists"
  | wouldBlock => "operation would block"
  | invalidInput => "invalid input parameter"
  | invalidData => "invalid data"
  | timedOut => "timed out"
  | writeZero => "write zero"
  | interrupted => "operation interrupted"
  | unsupported => "unsupported"
  | unexpectedEnd => "unexpected end of file"
  | outOfMemory => "out of memory"
  | other => "other error"
  | argumentListTooLong => "argument list too long"
  | crossesDevices => "cross-device link or rename"
  | deadlock => "deadlock"
  | directoryNotEmpty => "directory not empty"
  | executableFileBusy => "executable file busy"
  | fileTooLarge => "file too large"
  | filesystemLoop => "filesystem loop or indirection limit (e.g. symlink loop)"
  | inProgress => "in progress"
  | invalidFilename => "invalid filename"
  | isADirectory => "is a directory"
  | networkDown => "network down"
  | notADirectory => "not a directory"
  | notSeekable => "seek on unseekable file"
  | quotaExceeded => "quota exceeded"
  | readOnlyFilesystem => "read-only filesystem or storage medium"
  | resourceBusy => "resource busy"
  | staleHandle => "stale network file handle"
  | storageFull => "no storage space"
  | tooManyLinks => "too many links"
  | tooManyOpenFiles => "too many open files"
  | uncategorized => "uncategorized error"

end PersistentLink
