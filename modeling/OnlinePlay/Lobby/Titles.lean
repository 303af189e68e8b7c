/-!
# Game titles

The name of a game by its id: from the player's own library, else from a table of games that are
common in lobbies, else made up from the id.
-/

namespace OnlinePlay.Titles

/-- The games of the local player, by id. -/
abbrev Library := List (String × String)

/-- Games that are common in lobbies. -/
def common : List (String × String) :=
  [("RMCE01", "Mario Kart: Double Dash!!"),
    ("RMCP01", "Mario Kart Wii"),
    ("RMCE08", "Mario Kart 8 Deluxe"),
    ("GALE01", "Super Smash Bros. Melee"),
    ("GALE02", "Super Smash Bros. Brawl"),
    ("GALE08", "Super Smash Bros. Ultimate"),
    ("RZDP01", "Mario Party 8"),
    ("RZDP02", "Mario Party 9"),
    ("RZDP03", "Mario Party 10"),
    ("RZDP04", "Mario Party Superstars"),
    ("RMCE02", "Mario Golf: Toadstool Tour"),
    ("RMCE03", "Mario Tennis: Power Tour"),
    ("RMCE04", "Mario Baseball"),
    ("RMCE05", "Mario Strikers"),
    ("RMCE06", "Mario Hoops 3-on-3"),
    ("RMCE07", "Mario Tennis Open"),
    ("RSPE01", "Wii Sports"),
    ("RSPE02", "Wii Sports Resort"),
    ("RSPE03", "Wii Play"),
    ("RSPE04", "Wii Play Motion"),
    ("RZDE01", "Wii Party"),
    ("RZDE02", "Wii Party U"),
    ("RZDE03", "Wii Party Deluxe")]

/-- A readable name for a game. -/
def resolve (library : Library) (id : String) : String :=
  ((library.lookup id).or (common.lookup id)).getD ("Game (" ++ id ++ ")")

end OnlinePlay.Titles
