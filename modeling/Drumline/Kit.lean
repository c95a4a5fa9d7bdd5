/-! The percussion kit: which sound the target player has for a note number. -/

namespace Drumline.Kit

/-- Note numbers with their sounds, in ascending order.  The notes are those of the octaves 1 to 3
of a drum voice; 27 and 46 have no sound. -/
def entries : List (Nat × Nat) :=
  [(23, 53), (24, 53), (25, 60), (26, 57), (28, 57), (29, 55), (30, 69), (31, 64), (32, 71),
    (33, 55), (34, 67), (35, 64), (36, 65), (37, 72), (38, 65), (39, 76), (40, 72), (41, 77),
    (42, 74), (43, 72), (44, 60), (45, 72), (47, 76)]

/-- The sound of a note number, if the kit has one. -/
def sound? (note : Nat) : Option Nat := entries.lookup note

end Drumline.Kit
