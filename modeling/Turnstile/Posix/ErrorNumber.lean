/-!
# Error numbers

Two wordings of the numbers with which system calls fail on Linux: the one of the kernel's headers,
used for a bare number, and the one of the C library, used for a failed operation.
-/

set_option autoImplicit false
set_option relaxedAutoImplicit false

namespace Turnstile

/-- A number with which a system call failed. -/
structure ErrorNumber where
  number : Int
deriving DecidableEq, Repr

namespace ErrorNumber

/-- No such file or directory. -/
def noEntry : ErrorNumber := ⟨2⟩

/-- A descriptor that is not open. -/
def badDescriptor : ErrorNumber := ⟨9⟩

/-- A path that goes through something else than a directory. -/
def notDirectory : ErrorNumber := ⟨20⟩

/-- A directory where a file is needed. -/
def isDirectory : ErrorNumber := ⟨21⟩

def invalidArgument : ErrorNumber := ⟨22⟩

/-- A device without space for what is written to it. -/
def noSpace : ErrorNumber := ⟨28⟩

/-- A name longer than a directory can hold. -/
def nameTooLong : ErrorNumber := ⟨36⟩

/-- Number, wording of the headers and wording of the library. -/
def table : List (Int × String × String) := [
  (0, "Unknown errno", "Success"),
  (1, "Operation not permitted", "Operation not permitted"),
  (2, "No such file or directory", "No such file or directory"),
  (3, "No such process", "No such process"),
  (4, "Interrupted system call", "Interrupted system call"),
  (5, "I/O error", "Input/output error"),
  (6, "No such device or address", "No such device or address"),
  (7, "Argument list too long", "Argument list too long"),
  (8, "Exec format error", "Exec format error"),
  (9, "Bad file number", "Bad file descriptor"),
  (10, "No child processes", "No child processes"),
  (11, "Try again", "Resource temporarily unavailable"),
  (12, "Out of memory", "Cannot allocate memory"),
  (13, "Permission denied", "Permission denied"),
  (14, "Bad address", "Bad address"),
  (15, "Block device required", "Block device required"),
  (16, "Device or resource busy", "Device or resource busy"),
  (17, "File exists", "File exists"),
  (18, "Cross-device link", "Invalid cross-device link"),
  (19, "No such device", "No such device"),
  (20, "Not a directory", "Not a directory"),
  (21, "Is a directory", "Is a directory"),
  (22, "Invalid argument", "Invalid argument"),
  (23, "File table overflow", "Too many open files in system"),
  (24, "Too many open files", "Too many open files"),
  (25, "Not a typewriter", "Inappropriate ioctl for device"),
  (26, "Text file busy", "Text file busy"),
  (27, "File too large", "File too large"),
  (28, "No space left on device", "No space left on device"),
  (29, "Illegal seek", "Illegal seek"),
  (30, "Read-only file system", "Read-only file system"),
  (31, "Too many links", "Too many links"),
  (32, "Broken pipe", "Broken pipe"),
  (33, "Math argument out of domain of func", "Numerical argument out of domain"),
  (34, "Math result not representable", "Numerical result out of range"),
  (35, "Resource deadlock would occur", "Resource deadlock avoided"),
  (36, "File name too long", "File name too long"),
  (37, "No record locks available", "No locks available"),
  (38, "Function not implemented", "Function not implemented"),
  (39, "Directory not empty", "Directory not empty"),
  (40, "Too many symbolic links encountered", "Too many levels of symbolic links"),
  (42, "No message of desired type", "No message of desired type"),
  (43, "Identifier removed", "Identifier removed"),
  (44, "Channel number out of range", "Channel number out of range"),
  (45, "Level 2 not synchronized", "Level 2 not synchronized"),
  (46, "Level 3 halted", "Level 3 halted"),
  (47, "Level 3 reset", "Level 3 reset"),
  (48, "Link number out of range", "Link number out of range"),
  (49, "Protocol driver not attached", "Protocol driver not attached"),
  (50, "No CSI structure available", "No CSI structure available"),
  (51, "Level 2 halted", "Level 2 halted"),
  (52, "Invalid exchange", "Invalid exchange"),
  (53, "Invalid request descriptor", "Invalid request descriptor"),
  (54, "Exchange full", "Exchange full"),
  (55, "No anode", "No anode"),
  (56, "Invalid request code", "Invalid request code"),
  (57, "Invalid slot", "Invalid slot"),
  (59, "Bad font file format", "Bad font file format"),
  (60, "Device not a stream", "Device not a stream"),
  (61, "No data available", "No data available"),
  (62, "Timer expired", "Timer expired"),
  (63, "Out of streams resources", "Out of streams resources"),
  (64, "Machine is not on the network", "Machine is not on the network"),
  (65, "Package not installed", "Package not installed"),
  (66, "Object is remote", "Object is remote"),
  (67, "Link has been severed", "Link has been severed"),
  (68, "Advertise error", "Advertise error"),
  (69, "Srmount error", "Srmount error"),
  (70, "Communication error on send", "Communication error on send"),
  (71, "Protocol error", "Protocol error"),
  (72, "Multihop attempted", "Multihop attempted"),
  (73, "RFS specific error", "RFS specific error"),
  (74, "Not a data message", "Bad message"),
  (75, "Value too large for defined data type", "Value too large for defined data type"),
  (76, "Name not unique on network", "Name not unique on network"),
  (77, "File descriptor in bad state", "File descriptor in bad state"),
  (78, "Remote address changed", "Remote address changed"),
  (79, "Can not access a needed shared library", "Can not access a needed shared library"),
  (80, "Accessing a corrupted shared library", "Accessing a corrupted shared library"),
  (81, ".lib section in a.out corrupted", ".lib section in a.out corrupted"),
  (82, "Attempting to link in too many shared libraries",
    "Attempting to link in too many shared libraries"),
  (83, "Cannot exec a shared library directly", "Cannot exec a shared library directly"),
  (84, "Illegal byte sequence", "Invalid or incomplete multibyte or wide character"),
  (85, "Interrupted system call should be restarted",
    "Interrupted system call should be restarted"),
  (86, "Streams pipe error", "Streams pipe error"),
  (87, "Too many users", "Too many users"),
  (88, "Socket operation on non-socket", "Socket operation on non-socket"),
  (89, "Destination address required", "Destination address required"),
  (90, "Message too long", "Message too long"),
  (91, "Protocol wrong type for socket", "Protocol wrong type for socket"),
  (92, "Protocol not available", "Protocol not available"),
  (93, "Protocol not supported", "Protocol not supported"),
  (94, "Socket type not supported", "Socket type not supported"),
  (95, "Operation not supported on transport endpoint", "Operation not supported"),
  (96, "Protocol family not supported", "Protocol family not supported"),
  (97, "Address family not supported by protocol", "Address family not supported by protocol"),
  (98, "Address already in use", "Address already in use"),
  (99, "Cannot assign requested address", "Cannot assign requested address"),
  (100, "Network is down", "Network is down"),
  (101, "Network is unreachable", "Network is unreachable"),
  (102, "Network dropped connection because of reset", "Network dropped connection on reset"),
  (103, "Software caused connection abort", "Software caused connection abort"),
  (104, "Connection reset by peer", "Connection reset by peer"),
  (105, "No buffer space available", "No buffer space available"),
  (106, "Transport endpoint is already connected", "Transport endpoint is already connected"),
  (107, "Transport endpoint is not connected", "Transport endpoint is not connected"),
  (108, "Cannot send after transport endpoint shutdown",
    "Cannot send after transport endpoint shutdown"),
  (109, "Too many references: cannot splice", "Too many references: cannot splice"),
  (110, "Connection timed out", "Connection timed out"),
  (111, "Connection refused", "Connection refused"),
  (112, "Host is down", "Host is down"),
  (113, "No route to host", "No route to host"),
  (114, "Operation already in progress", "Operation already in progress"),
  (115, "Operation now in progress", "Operation now in progress"),
  (116, "Stale file handle", "Stale file handle"),
  (117, "Structure needs cleaning", "Structure needs cleaning"),
  (118, "Not a XENIX named type file", "Not a XENIX named type file"),
  (119, "No XENIX semaphores available", "No XENIX semaphores available"),
  (120, "Is a named type file", "Is a named type file"),
  (121, "Remote I/O error", "Remote I/O error"),
  (122, "Quota exceeded", "Disk quota exceeded"),
  (123, "No medium found", "No medium found"),
  (124, "Wrong medium type", "Wrong medium type"),
  (125, "Operation canceled", "Operation canceled"),
  (126, "Required key not available", "Required key not available"),
  (127, "Key has expired", "Key has expired"),
  (128, "Key has been revoked", "Key has been revoked"),
  (129, "Key was rejected by service", "Key was rejected by service"),
  (130, "Owner died", "Owner died"),
  (131, "State not recoverable", "State not recoverable"),
  (132, "Operation not possible due to RF-kill", "Operation not possible due to RF-kill"),
  (133, "Memory page has hardware error", "Memory page has hardware error")]

/-- The wording of the headers. -/
def description (e : ErrorNumber) : String :=
  match table.find? (·.1 = e.number) with
  | some (_, header, _) => header
  | none => "Unknown errno"

/-- The wording of the library, with the number. -/
def message (e : ErrorNumber) : String :=
  let text := match table.find? (·.1 = e.number) with
    | some (_, _, library) => library
    | none => "Unknown error " ++ toString e.number
  text ++ " (os error " ++ toString e.number ++ ")"

end ErrorNumber

end Turnstile
