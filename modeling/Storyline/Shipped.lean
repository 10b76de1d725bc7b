/-!
# Storyline.Shipped

The episode that comes with the program, as it stands in its file.
-/

namespace Storyline.Shipped

/-- The id of the episode. -/
def id : String := "ep1"

/-- The lines of its document. -/
def lines : List String := [
  "\x7b",
  "  \"episodeId\": \"ep1\",",
  "  \"title\": \"Harbor at Dusk\",",
  "  \"start\": \"intro_bg\",",
  "  \"nodes\": \x7b",
  "    \"intro_bg\": \x7b \"type\": \"bg\", \"bg\": \"harbor_dusk\", \"next\": \"intro_music\" \x7d,",
  "    \"intro_music\": \x7b \"type\": \"music\", \"music\": \"theme_calm\", \"next\": \"intro_sprite\" \x7d,",
  "    \"intro_sprite\": \x7b \"type\": \"sprite\", \"who\": \"Mira\", \"sprite\": \"mira_smile\", \"pos\": \"left\", \"next\": \"intro_say\" \x7d,",
  "    \"intro_say\": \x7b \"type\": \"say\", \"who\": \"Mira\", \"text\": \"Welcome to the harbor. The market closes at nightfall.\", \"next\": \"grant\" \x7d,",
  "    \"grant\": \x7b \"type\": \"set\", \"vars\": \x7b \"gold\": \"+10\", \"energy\": 3, \"mood\": \"curious\" \x7d, \"next\": \"market\" \x7d,",
  "    \"market\": \x7b",
  "      \"type\": \"choice\",",
  "      \"text\": \"What will you do before dark?\",",
  "      \"options\": [",
  "        \x7b \"id\": \"buy_map\", \"label\": \"Buy a map\", \"next\": \"map_bought\", \"gain\": \x7b \"gold\": -10 \x7d, \"req\": \x7b \"gold\": 10 \x7d \x7d,",
  "        \x7b \"id\": \"rest\", \"label\": \"Rest at the inn\", \"next\": \"rested\", \"gain\": \x7b \"energy\": 2 \x7d \x7d,",
  "        \x7b",
  "          \"id\": \"fortune\",",
  "          \"label\": \"Ask the fortune teller\",",
  "          \"next\": \"fortune\",",
  "          \"gain\": \x7b \"energy\": -2, \"runes\": -1 \x7d,",
  "          \"req\": \x7b \"energy\": 2, \"runes\": 1 \x7d,",
  "          \"meta\": \"premium_iap\"",
  "        \x7d",
  "      ]",
  "    \x7d,",
  "    \"map_bought\": \x7b \"type\": \"sfx\", \"sfx\": \"coin\", \"next\": \"map_say\" \x7d,",
  "    \"map_say\": \x7b \"type\": \"say\", \"who\": \"Mira\", \"text\": \"A fine map. It points to the reef.\", \"next\": \"reef_check\" \x7d,",
  "    \"rested\": \x7b \"type\": \"say\", \"who\": \"Innkeeper\", \"text\": \"Sleep well, traveler.\", \"next\": \"reef_check\" \x7d,",
  "    \"fortune\": \x7b \"type\": \"say\", \"who\": \"Fortune Teller\", \"text\": \"The tide favors the patient.\", \"next\": \"reef_check\" \x7d,",
  "    \"reef_check\": \x7b \"type\": \"check\", \"req\": \x7b \"energy\": 4 \x7d, \"onPass\": \"reef_game\", \"onFail\": \"too_tired\" \x7d,",
  "    \"reef_game\": \x7b",
  "      \"type\": \"minigame\",",
  "      \"id\": \"reef_dive\",",
  "      \"rules\": \"Collect three pearls before the tide turns.\",",
  "      \"onWin\": \"reef_win\",",
  "      \"onLose\": \"too_tired\"",
  "    \x7d,",
  "    \"reef_win\": \x7b \"type\": \"set\", \"vars\": \x7b \"pearls\": \"+3\" \x7d, \"next\": \"ending\" \x7d,",
  "    \"too_tired\": \x7b \"type\": \"say\", \"who\": \"Mira\", \"text\": \"Maybe tomorrow, then.\", \"next\": \"ending_jump\" \x7d,",
  "    \"ending_jump\": \x7b \"type\": \"jump\", \"to\": \"ending\" \x7d,",
  "    \"ending\": \x7b \"type\": \"end\", \"summary\": \"Gold: \x7bgold\x7d, pearls: \x7bpearls\x7d, mood: \x7bmood\x7d\", \"save\": true \x7d",
  "  \x7d",
  "\x7d"]

/-- Its document. -/
def document : String := String.join (lines.map (· ++ "\n"))

end Storyline.Shipped
